import StyleBundler.Proofs.Pack.Declared

/-!
Planned imports inside one another. What stands between the start of an import and its end is its
own, but for what its braces hold and, in a declaration, its clause (`holds_iff_of_importNodeAt?`).
Only there can two entries of a plan overlap (`keepsApart_iff`), and only where they do does packing
fail (`exists_ofCode_iff`).
-/

namespace StyleBundler.Script

open Text

/-- The offset lies between the braces of an object literal. -/
def ObjectLiteral.Holds (o : ObjectLiteral) (offset : Nat) : Prop :=
  o.span.start < offset ∧ offset < o.span.stop

/-- The offset lies where a node has room for other text: in the options of a call, in the clause
of a declaration or in its attributes. -/
def ImportNode.Holds (offset : Nat) : ImportNode → Prop
  | .declaration d =>
      (d.span.start < offset ∧ offset < d.sourceSpan.start) ∨
        ∃ a, d.attributes = some a ∧ a.entries.Holds offset
  | .call c => ∃ o, c.options = some o ∧ o.Holds offset

/-- The tokens `ts` are the object literal at the span, with its braces. -/
def IsObject (s : Span) (ts : List Token) : Prop :=
  ∃ brace inner z, ts = brace :: (inner ++ [z]) ∧ brace.isPunct '\x7b' = true ∧
    z.isPunct '\x7d' = true ∧ s = ⟨brace.span.start, z.span.stop⟩

/-- Only what stands between the braces of an object literal is a word. -/
theorem IsObject.holds {o : ObjectLiteral} {a ts b : List Token} {u : Token} {name : String}
    (h : IsObject o.span ts) (hts : InOrder (a ++ ts ++ b)) (hu : u ∈ ts)
    (hword : u.kind = .ident name) : o.Holds u.span.start := by
  obtain ⟨brace, inner, z, rfl, hbrace, hz, hspan⟩ := h
  have hu : u ∈ inner := by
    rcases List.mem_cons.mp hu with rfl | hu
    · cases (kind_of_isPunct hbrace).symm.trans hword
    · rcases List.mem_append.mp hu with hu | hu
      · exact hu
      · rw [List.mem_singleton.mp hu] at hword
        cases (kind_of_isPunct hz).symm.trans hword
  have hopen : brace.span.stop ≤ u.span.start :=
    InOrder.stop_le (a := a ++ [brace]) (b := inner ++ [z] ++ b) (by simpa using hts) (by simp)
      (by simp [hu])
  have hclose : u.span.stop ≤ z.span.start :=
    InOrder.stop_le (a := a ++ brace :: inner) (b := z :: b) (by simpa using hts) (by simp [hu])
      (by simp)
  have hbrace := hts.start_lt_stop (t := brace) (by simp)
  have hz := hts.start_lt_stop (t := z) (by simp)
  have hu := hts.start_lt_stop (t := u) (by simp [hu])
  simp only [ObjectLiteral.Holds, hspan]
  omega

theorem IsObject.exists_stop {s : Span} {ts : List Token} (h : IsObject s ts) :
    ∃ z ∈ ts, s.stop = z.span.stop := by
  obtain ⟨brace, inner, z, rfl, -, -, rfl⟩ := h
  exact ⟨z, by simp, rfl⟩

theorem IsObject.exists_start {s : Span} {ts : List Token} (h : IsObject s ts) :
    ∃ brace ∈ ts, s.start = brace.span.start := by
  obtain ⟨brace, inner, z, rfl, -, -, rfl⟩ := h
  exact ⟨brace, by simp, rfl⟩

theorem readExpr?_isObject {ts rest : List Token} {e : Expr} {o : ObjectLiteral}
    (h : readExpr? ts = some (e, rest)) (ho : e.asObject? = some o) :
    ∃ taken, ts = taken ++ rest ∧ IsObject o.span taken := by
  have hplain : readPlain? ts ≠ some (e, rest) := by
    rw [readPlain?_eq]
    rintro hread
    obtain ⟨found, hfound, hpair⟩ := Option.map_eq_some_iff.mp hread
    obtain ⟨rfl, -⟩ := Prod.mk.inj hpair
    unfold Operand.toExpr? at hfound
    split at hfound
    · cases hfound
    · next t _ =>
        cases hfound
        cases hkind : t.kind <;> simp [hkind, Expr.asObject?] at ho
    · split at hfound <;> cases hfound <;> cases ho
  cases ts with
  | nil => cases readExpr?_nil.symm.trans h
  | cons brace ts =>
      rw [readExpr?_cons] at h
      split at h
      · next hbrace =>
          split at h
          · next found stop left hproperties =>
              split at h
              · cases h
                cases ho
                obtain ⟨inner, z, rfl, hz, rfl⟩ := readProperties?_closes hproperties
                exact ⟨brace :: (inner ++ [z]), by simp, brace, inner, z, rfl, hbrace, hz, rfl⟩
              · exact absurd h hplain
          · exact absurd h hplain
      · exact absurd h hplain

/-- The options of a call stand behind a comma, and perhaps in front of another one. -/
theorem readOptions?_isObject {ts rest : List Token} {o : ObjectLiteral}
    (h : readOptions? ts = some (some o, rest)) :
    ∃ comma taken trail, ts = comma :: (taken ++ (trail ++ rest)) ∧ IsObject o.span taken ∧
      ∀ u ∈ comma :: trail, u.isPunct ',' = true := by
  cases ts with
  | nil => cases h
  | cons comma ts =>
      rw [readOptions?] at h
      split at h
      · next hcomma =>
          cases ts with
          | nil => cases h
          | cons t ts =>
              rw [callOptions?_cons] at h
              split at h
              · cases h
              · obtain ⟨⟨value, left⟩, hvalue, h⟩ := Option.bind_eq_some_iff.mp h
                obtain ⟨left', hskip, hparts⟩ := Option.map_eq_some_iff.mp h
                obtain ⟨ho, rfl⟩ := Prod.mk.inj hparts
                obtain ⟨taken, hts, htaken⟩ := readExpr?_isObject hvalue ho
                cases left with
                | nil => cases hskip
                | cons u left =>
                    cases hskip
                    rw [hts]
                    split
                    · next hu => exact ⟨comma, taken, [u], rfl, htaken, by simp [hcomma, hu]⟩
                    · exact ⟨comma, taken, [], rfl, htaken, by simp [hcomma]⟩
      · cases h

theorem attributes?_isObject {ts rest : List Token} {a : Attributes}
    (h : attributes? ts = some (some a, rest)) :
    ∃ keyword name taken, ts = keyword :: (taken ++ rest) ∧ keyword.kind = .ident name ∧
      (AttributeKeyword.ofText? name).isSome = true ∧ IsObject a.entries.span taken := by
  match ts with
  | [] | [_] => cases h
  | keyword :: brace :: ts =>
      rw [attributes?_cons_cons] at h
      split at h
      · next name hname =>
          split at h
          · next kind hkind =>
              split at h
              · next hbrace =>
                  obtain ⟨⟨found, stop, left⟩, hread, hr⟩ := Option.map_eq_some_iff.mp h
                  cases hr
                  obtain ⟨inner, z, rfl, hz, rfl⟩ := readProperties?_closes hread
                  exact ⟨keyword, name, brace :: (inner ++ [z]), by simp, hname,
                    by rw [hkind]; rfl, brace, inner, z, rfl, hbrace, hz, rfl⟩
              · cases h
          · cases h
      · cases h

section Node

variable {before ts : List Token} {t u : Token} {kind : TokenKind}

/-- A word behind the parenthesis of a call is in the call just when it is in its options. -/
theorem holds_iff_of_call? {start : Nat} {c : ImportCall} {o : ObjectLiteral} {name : String}
    (h : call? start before ts = some c) (hliteral : c.argument.literal? = some kind)
    (ho : c.options = some o) (hts : InOrder ts) (hu : u ∈ ts) (hword : u.kind = .ident name) :
    o.Holds u.span.start ↔ u.span.start < c.span.stop := by
  obtain ⟨rest, z, left, hargument, hoptions, hz, hspan, -⟩ := exists_readExpr?_of_call? h
  obtain ⟨rfl, -⟩ := readExpr?_literal hargument hliteral
  rw [ho] at hoptions
  obtain ⟨comma, taken, trail, rfl, htaken, hcommas⟩ := readOptions?_isObject hoptions
  have hpunct : ∀ {sign : Char}, u.isPunct sign ≠ true := fun {sign} hsign => by
    cases (kind_of_isPunct hsign).symm.trans hword
  have hlast : ∀ {w : Token}, w ∈ taken → w.span.stop ≤ z.span.start := fun {w} hw =>
    InOrder.stop_le (a := ⟨kind, c.argument.span⟩ :: comma :: (taken ++ trail)) (b := z :: left)
      (by simpa using hts) (by simp [hw]) (by simp)
  have hstop : c.span.stop = z.span.stop := by rw [hspan]
  have hlt := hts.start_lt_stop (t := z) (by simp)
  rw [hstop]
  constructor
  · intro hholds
    obtain ⟨close, hclose, hobject⟩ := htaken.exists_stop
    have hclose := hlast hclose
    have hholds := hholds.2
    omega
  · intro hlt
    have hmem : u ∈ taken := by
      rcases List.mem_cons.mp hu with rfl | hu
      · rcases Expr.isLiteral_of_literal? hliteral with ⟨_, rfl⟩ | ⟨_, rfl⟩ <;> cases hword
      rcases List.mem_cons.mp hu with rfl | hu
      · exact absurd (hcommas u List.mem_cons_self) hpunct
      rcases List.mem_append.mp hu with hu | hu
      · exact hu
      rcases List.mem_append.mp hu with hu | hu
      · exact absurd (hcommas u (List.mem_cons_of_mem _ hu)) hpunct
      rcases List.mem_cons.mp hu with rfl | hu
      · exact absurd hz hpunct
      · have hle := InOrder.stop_le (t := z) (b := left)
          (a := ⟨kind, c.argument.span⟩ :: comma :: (taken ++ (trail ++ [z])))
          (by simpa using hts) (by simp) hu
        omega
    exact htaken.holds (a := [⟨kind, c.argument.span⟩, comma]) (b := trail ++ z :: left)
      (by simpa using hts) hmem hword

/-- A declaration ends behind its last token, and in front of the next word. -/
theorem declarationEnd_bounds {a left : List Token} {z : Token} (hts : InOrder (a ++ left))
    (hz : z ∈ a) :
    z.span.stop ≤ declarationEnd z.span.stop left ∧
      ∀ u ∈ left, ∀ {name}, u.kind = .ident name →
        declarationEnd z.span.stop left ≤ u.span.start := by
  cases left with
  | nil => exact ⟨Nat.le_refl _, nofun⟩
  | cons w left =>
      have hw : z.span.stop ≤ w.span.start := hts.stop_le hz List.mem_cons_self
      have hw' := hts.start_lt_stop (t := w) (by simp)
      simp only [declarationEnd]
      split
      · next hsemicolon =>
          refine ⟨by omega, fun u hu name hword => ?_⟩
          rcases List.mem_cons.mp hu with rfl | hu
          · cases (kind_of_isPunct hsemicolon).symm.trans hword
          · exact InOrder.stop_le (a := a ++ [w]) (by simpa using hts) (by simp) hu
      · exact ⟨Nat.le_refl _, fun u hu _ _ => hts.stop_le hz hu⟩

/-- A further `import` is in a declaration that has attributes just when it is in its clause or in
the attributes. -/
theorem holds_iff_of_declaration? {d : ImportDeclaration} {a : Attributes}
    (hfirst : t.kind = .ident "import") (h : declaration? t.span.start ts = some d)
    (ha : d.attributes = some a) (hts : InOrder (t :: ts)) (hu : u ∈ ts)
    (hword : u.kind = .ident "import") :
    (ImportNode.declaration d).Holds u.span.start ↔ u.span.start < d.span.stop := by
  obtain ⟨bound, rest, left, hclause, hattributes, -, -, hspan⟩ :=
    exists_readClause?_of_declaration? h
  obtain ⟨front, a', name, hsplit, -⟩ := readClause?_foothold hfirst hclause
  rw [ha] at hattributes hspan
  obtain ⟨keyword, spelled, taken, rfl, hkeyword, hspelled, htaken⟩ :=
    attributes?_isObject hattributes
  have hafter : t.span.stop ≤ u.span.start := (List.pairwise_cons.mp hts.2).1 u hu
  have hfirst' := hts.start_lt_stop List.mem_cons_self
  have hmem : u ∈ front ++ a' :: ⟨.str d.source, d.sourceSpan⟩ :: keyword :: (taken ++ left) :=
    hsplit ▸ List.mem_cons_of_mem t hu
  rw [hsplit] at hts
  obtain ⟨z, hz, hobject⟩ := htaken.exists_stop
  have hsource : d.sourceSpan.stop ≤ z.span.start :=
    InOrder.stop_le (t := ⟨.str d.source, d.sourceSpan⟩) (u := z)
      (a := front ++ [a', ⟨.str d.source, d.sourceSpan⟩]) (b := keyword :: (taken ++ left))
      (by simpa using hts) (by simp) (by simp [hz])
  have hsource' := hts.start_lt_stop (t := ⟨.str d.source, d.sourceSpan⟩) (by simp)
  have hz' := hts.start_lt_stop (t := z) (by simp [hz])
  have hstart : d.span.start = t.span.start := by rw [hspan]
  have hstop : d.span.stop = declarationEnd z.span.stop left := by rw [hspan, ← hobject]; rfl
  obtain ⟨hle, hbehind⟩ := declarationEnd_bounds
    (a := front ++ a' :: ⟨.str d.source, d.sourceSpan⟩ :: keyword :: taken) (z := z)
    (by simpa using hts) (by simp [hz])
  rw [← hstop] at hle hbehind
  constructor
  · rintro (⟨-, hlt⟩ | ⟨entries, hentries, hholds⟩)
    · dsimp only at hsource'
      omega
    · cases ha.symm.trans hentries
      have hholds := hholds.2
      omega
  · intro hlt
    have hcases : u ∈ front ++ [a'] ∨ u ∈ taken := by
      simp only [List.mem_append, List.mem_cons] at hmem
      rcases hmem with hu | rfl | rfl | rfl | hu | hu
      · exact .inl (List.mem_append_left _ hu)
      · exact .inl (by simp)
      · cases hword
      · cases hkeyword.symm.trans hword
        cases hspelled
      · exact .inr hu
      · have hle := hbehind u hu hword
        omega
    rcases hcases with hu | hu
    · have hle := InOrder.stop_le (a := front ++ [a']) (u := ⟨.str d.source, d.sourceSpan⟩)
        (b := ⟨.str d.source, d.sourceSpan⟩ :: keyword :: (taken ++ left))
        (by simpa using hts) hu (by simp)
      have hlt := hts.start_lt_stop (t := u) (by simpa using hmem)
      dsimp only at hle
      exact .inl ⟨by omega, by omega⟩
    · exact .inr ⟨a, ha, htaken.holds (b := left)
        (a := front ++ [a', ⟨.str d.source, d.sourceSpan⟩, keyword]) (by simpa using hts) hu hword⟩

/-- A further `import` behind that of a node for a stylesheet is in the node just when the node
holds it. -/
theorem holds_iff_of_importNodeAt? {n : ImportNode} (h : importNodeAt? before t ts = some n)
    (hcss : n.isCss = true) (hliteral : n.specifier.literal? = some kind)
    (hts : InOrder (t :: ts)) (hu : u ∈ ts) (hword : u.kind = .ident "import") :
    n.Holds u.span.start ↔ u.span.start < n.span.stop := by
  obtain ⟨hfirst, -, ⟨paren, rest, c, rfl, hparen, hc, rfl⟩ | ⟨d, -, hd, rfl⟩⟩ :=
    importNodeAt?_cases h
  · have hu : u ∈ rest := by
      rcases List.mem_cons.mp hu with rfl | hu
      · cases hparen.symm.trans hword
      · exact hu
    have hrest : InOrder rest := InOrder.of_append (a := [t, paren]) hts
    simp only [ImportNode.isCss, Import.cssKeyword?, Option.bind_eq_bind] at hcss
    cases ho : c.options with
    | none => simp [ho] at hcss
    | some o =>
        have hiff := holds_iff_of_call? hc hliteral ho hrest hu hword
        simpa [ImportNode.Holds, ImportNode.span, ho] using hiff
  · simp only [ImportNode.isCss, Import.isCssDeclaration] at hcss
    cases ha : d.attributes with
    | none => simp [ha] at hcss
    | some a => exact holds_iff_of_declaration? hfirst hd ha hts hu hword

/-- What a node holds stands behind its start. -/
theorem start_lt_of_holds {n : ImportNode} {offset : Nat} (h : importNodeAt? before t ts = some n)
    (hliteral : n.specifier.literal? = some kind) (hts : InOrder (t :: ts))
    (hholds : n.Holds offset) : n.span.start < offset := by
  have hobject : ∀ {o : ObjectLiteral} {taken : List Token}, taken ⊆ ts → IsObject o.span taken →
      o.Holds offset → t.span.start < offset := by
    intro o taken hsub htaken hholds
    obtain ⟨brace, hbrace, hstart⟩ := htaken.exists_start
    have hle := (List.pairwise_cons.mp hts.2).1 brace (hsub hbrace)
    have hlt := hts.start_lt_stop (t := t) List.mem_cons_self
    have hholds := hholds.1
    omega
  rw [start_of_importNodeAt? h]
  obtain ⟨hfirst, -, ⟨paren, rest, c, rfl, -, hc, rfl⟩ | ⟨d, -, hd, rfl⟩⟩ := importNodeAt?_cases h
  · obtain ⟨o, ho, hholds⟩ := hholds
    obtain ⟨behind, z, left, hargument, hoptions, -⟩ := exists_readExpr?_of_call? hc
    obtain ⟨rfl, -⟩ := readExpr?_literal hargument hliteral
    rw [ho] at hoptions
    obtain ⟨comma, taken, trail, rfl, htaken, -⟩ := readOptions?_isObject hoptions
    exact hobject (fun w hw => by simp [hw]) htaken hholds
  · obtain ⟨bound, behind, left, hclause, hattributes, -, -, hspan⟩ :=
      exists_readClause?_of_declaration? hd
    rcases hholds with ⟨hlt, -⟩ | ⟨a, ha, hholds⟩
    · rwa [hspan] at hlt
    · obtain ⟨front, a', name, hsplit, -⟩ := readClause?_foothold hfirst hclause
      rw [ha] at hattributes
      obtain ⟨keyword, spelled, taken, rfl, -, -, htaken⟩ := attributes?_isObject hattributes
      refine hobject (fun w hw => ?_) htaken hholds
      cases front with
      | nil => rw [(List.cons.inj hsplit).2]; simp [hw]
      | cons _ front => rw [(List.cons.inj hsplit).2]; simp [hw]

end Node

end StyleBundler.Script

namespace StyleBundler.Plan

open Script

variable {store : AssetStore} {code : String} {m n : ImportNode} {d e : PlannedImport}

/-- Packing replaces a node, or with it the `await` in front. -/
theorem span_of_importOf? {before ts : List Token} {t : Token}
    (hread : importNodeAt? before t ts = some n) (he : importOf? store n = some e) :
    e.span = n.span ∨ ∃ w more, before = w :: more ∧ w.kind = .ident "await" ∧
      e.span = ⟨w.span.start, n.span.stop⟩ := by
  obtain ⟨-, heq⟩ := exists_node_of_importOf? he
  rw [heq]
  cases n with
  | declaration d => exact .inl rfl
  | call c =>
      simp only [entryOf, callBinding]
      cases hb : c.binding with
      | none => exact .inl rfl
      | some b =>
          cases hawaited : b.awaited with
          | false => exact .inl (by simp [hawaited, ImportNode.span])
          | true =>
              obtain ⟨w, more, hbefore, hw, hspan⟩ := exists_await_of_callBinding?
                ((binding_of_importNodeAt? hread).symm.trans hb) hawaited
              exact .inr ⟨w, more, hbefore, hw, by simp [hawaited, hspan, ImportNode.span]⟩

theorem literal?_of_importOf? (he : importOf? store n = some e) :
    ∃ kind, n.specifier.literal? = some kind := by
  rw [importOf?_eq] at he
  split at he
  · obtain ⟨reference, htext, -⟩ := Option.bind_eq_some_iff.mp he
    exact ImportNode.literal?_of_specifierText? htext
  · cases he

theorem Replaces.exists_stop {front ts : List Token} (h : Replaces e front ts) :
    ∃ z sign, z ∈ ts ∧ z.kind = .punct sign ∧ e.span.stop = z.span.stop := by
  obtain ⟨t, z, -, hz, hspan⟩ := h.takesUp
  have hlast : ∃ sign, z.kind = .punct sign := by
    cases hkind : e.isDeclaration with
    | false =>
        obtain ⟨z', hz', hclose⟩ := h.call hkind
        cases hz.symm.trans hz'
        exact ⟨_, kind_of_isPunct hclose⟩
    | true =>
        obtain ⟨z', hz', hclose | hclose⟩ := h.declaration hkind <;> cases hz.symm.trans hz'
        · exact ⟨_, kind_of_isPunct hclose⟩
        · exact ⟨_, kind_of_isPunct hclose⟩
  obtain ⟨sign, hsign⟩ := hlast
  exact ⟨z, sign, List.mem_of_getLast? hz, hsign, by rw [hspan]⟩

/-- What ends before a node ends before its entry starts, but for the `await` in front. -/
theorem stop_le_start_of_mem (hn : n ∈ importNodes code) (he : importOf? store n = some e)
    {v : Token} (hv : v ∈ tokenize code) (hkind : v.kind ≠ .ident "await")
    (hle : v.span.stop ≤ n.span.start) : v.span.stop ≤ e.span.start := by
  obtain ⟨front, u, back, htokens, hread⟩ := exists_split_of_mem_importNodesFrom hn
  rw [List.append_nil] at hread
  rw [start_of_importNodeAt? hread] at hle
  rcases span_of_importOf? hread he with h | ⟨w, more, hfront, hw, h⟩
  · rwa [h, start_of_importNodeAt? hread]
  · rw [List.reverse_eq_cons_iff] at hfront
    subst hfront
    have hinorder := inOrder_tokenize code
    have hlt := hinorder.start_lt_stop hv
    rw [htokens] at hv hinorder
    rw [h]
    simp only [List.mem_append, List.mem_cons, List.not_mem_nil, or_false] at hv
    rcases hv with (hv | rfl) | rfl | hv
    · exact InOrder.stop_le (a := more.reverse) (b := w :: u :: back) (by simpa using hinorder)
        hv List.mem_cons_self
    · exact absurd hw hkind
    · omega
    · have hle' := InOrder.stop_le (t := u) (a := more.reverse ++ [w, u]) (b := back)
        (by simpa using hinorder) (by simp) hv
      have hlt' := hinorder.start_lt_stop (t := u) (by simp)
      omega

theorem exists_token_of_mem_importNodes (hm : m ∈ importNodes code) :
    ∃ t ∈ tokenize code, t.kind = .ident "import" ∧ t.span.start = m.span.start := by
  obtain ⟨front, t, back, htokens, hread⟩ := exists_split_of_mem_importNodesFrom hm
  exact ⟨t, by simp [htokens], (importNodeAt?_cases hread).1, (start_of_importNodeAt? hread).symm⟩

/-- Entries start in the order of their nodes. -/
theorem start_lt_start (hm : m ∈ importNodes code) (hn : n ∈ importNodes code)
    (hd : importOf? store m = some d) (he : importOf? store n = some e)
    (hlt : m.span.start < n.span.start) : d.span.start < e.span.start := by
  obtain ⟨t, ht, hword, hstart⟩ := exists_token_of_mem_importNodes hm
  obtain ⟨u, hu, -, hstart'⟩ := exists_token_of_mem_importNodes hn
  have hinorder := inOrder_tokenize code
  have hle := hinorder.stop_le_of_start_lt ht hu (by omega)
  have hle := stop_le_start_of_mem hn he ht (by simp [hword]) (by omega)
  have hbounds := start_of_importOf? hm hd
  have hlt' := hinorder.start_lt_stop ht
  omega

/-- Of two entries the first ends before the second starts, unless its node holds the other. -/
theorem stop_le_start_iff (hm : m ∈ importNodes code) (hn : n ∈ importNodes code)
    (hd : importOf? store m = some d) (he : importOf? store n = some e)
    (hlt : m.span.start < n.span.start) :
    d.span.stop ≤ e.span.start ↔ ¬m.Holds n.span.start := by
  obtain ⟨kind, hliteral⟩ := literal?_of_importOf? hd
  have hcss := (exists_node_of_importOf? hd).1
  have hbounds := start_of_importOf? hn he
  have hinorder := inOrder_tokenize code
  obtain ⟨front, t, back, htokens, hread⟩ := exists_split_of_mem_importNodesFrom hm
  rw [List.append_nil] at hread
  obtain ⟨u, hu, hword, hstart⟩ := exists_token_of_mem_importNodes hn
  have hback : u ∈ back := by
    have hlt' := hinorder.start_lt_stop hu
    rw [htokens] at hu
    rw [start_of_importNodeAt? hread, ← hstart] at hlt
    rcases List.mem_append.mp hu with hu | hu
    · have hle := (htokens ▸ hinorder).stop_le hu (List.mem_cons_self (a := t))
      omega
    · rcases List.mem_cons.mp hu with rfl | hu
      · omega
      · exact hu
  have hholds := holds_iff_of_importNodeAt? hread hcss hliteral (htokens ▸ hinorder).of_append
    hback hword
  have hstop : d.span.stop = m.span.stop := by
    rcases span_of_importOf? hread hd with h | ⟨w, more, -, -, h⟩ <;> rw [h]
  rw [← hstart, hholds, ← hstop, Nat.not_lt, hstart]
  constructor
  · intro hle
    omega
  · -- The last token of the first node is a sign, and no `await`.
    intro hle
    obtain ⟨a, ts, b, hsplit, -, hreplaces⟩ := exists_replaces htokens hread hd
    obtain ⟨z, sign, hz, hsign, hzstop⟩ := hreplaces.exists_stop
    rw [hzstop] at hle ⊢
    exact stop_le_start_of_mem hn he (by simp [hsplit, hz]) (by simp [hsign]) hle

/-- The nodes that packing replaces. -/
def nodes (store : AssetStore) (code : String) : List ImportNode :=
  (importNodes code).filter fun n => (importOf? store n).isSome

theorem mem_nodes : n ∈ nodes store code ↔ n ∈ importNodes code ∧ ∃ e, importOf? store n = some e := by
  rw [nodes, List.mem_filter, Option.isSome_iff_exists]

theorem start_lt_of_mem_nodes (hm : m ∈ nodes store code) {offset : Nat} (h : m.Holds offset) :
    m.span.start < offset := by
  obtain ⟨hm, d, hd⟩ := mem_nodes.mp hm
  obtain ⟨kind, hliteral⟩ := literal?_of_importOf? hd
  obtain ⟨front, t, back, htokens, hread⟩ := exists_split_of_mem_importNodesFrom hm
  exact start_lt_of_holds hread hliteral (htokens ▸ inOrder_tokenize code).of_append h

/-- The entry of a node that starts inside another one. -/
def IsInner (store : AssetStore) (code : String) (e : PlannedImport) : Prop :=
  ∃ m ∈ nodes store code, ∃ n ∈ nodes store code,
    m.Holds n.span.start ∧ importOf? store n = some e

/-- An entry starts behind those in front of it, and behind their ends if it is not inside one. -/
theorem pairwise_scan (store : AssetStore) (code : String) :
    (scan store code).Pairwise fun d e =>
      d.span.start < e.span.start ∧ (d.span.stop ≤ e.span.start ∨ IsInner store code e) := by
  rw [scan, List.pairwise_filterMap]
  refine (pairwise_importNodes code).imp_of_mem ?_
  intro m n hm hn hlt d hd e he
  refine ⟨start_lt_start hm hn hd he hlt, or_iff_not_imp_left.mpr fun hle => ?_⟩
  rw [stop_le_start_iff hm hn hd he hlt, not_not] at hle
  exact ⟨m, mem_nodes.mpr ⟨hm, d, hd⟩, n, mem_nodes.mpr ⟨hn, e, he⟩, hle, he⟩

/-- Two entries overlap just when one is inside the other. -/
theorem keepsApart_iff (store : AssetStore) (code : String) :
    (scan store code).KeepsApart ↔ ∀ e ∈ scan store code, ¬IsInner store code e := by
  constructor
  · rintro h e - ⟨m, hm, n, hn, hholds, he⟩
    have hlt := start_lt_of_mem_nodes hm hholds
    obtain ⟨hm, d, hd⟩ := mem_nodes.mp hm
    have hn := (mem_nodes.mp hn).1
    rw [KeepsApart, scan, List.pairwise_filterMap] at h
    have hsymm : Std.Symm fun m n => ∀ d, importOf? store m = some d → ∀ e,
        importOf? store n = some e → d.span.stop ≤ e.span.start ∨ e.span.stop ≤ d.span.start :=
      ⟨fun m n h e he d hd => (h d hd e he).symm⟩
    have hne : m ≠ n := by
      rintro rfl
      omega
    have hmd := start_of_importOf? hm hd
    have hne' := start_of_importOf? hn he
    rcases h.forall hm hn hne d hd e he with hle | hle
    · exact (stop_le_start_iff hm hn hd he hlt).mp hle hholds
    · omega
  · intro h
    refine (pairwise_scan store code).imp_of_mem ?_
    intro d e _ he hde
    exact .inl (hde.2.resolve_right (h e he))

end StyleBundler.Plan

namespace StyleBundler.PackedUnit

open Script

variable {store : AssetStore} {mode : PackMode} {keyword : AttributeKeyword} {code : String}

/-- Packing fails as the edits do that it comes to. -/
theorem exists_edits (store : AssetStore) (mode : PackMode) (keyword : AttributeKeyword)
    (code : String) :
    ∃ s : Edits, s.edits = replacements mode (Plan.scan store code) ∧
      ∀ err, ofCode store mode keyword code = .error err ↔ s.apply code.toList = .error err := by
  have hmade : ∀ {s : Edits} {artifact : Option Artifact},
      s.edits = replacements mode (Plan.scan store code) →
      ofCode store mode keyword code =
        (if (Plan.scan store code).isEmpty then .ok none
        else (s.applyText code).map fun text => some ⟨text, artifact, Plan.scan store code⟩) →
      ∃ s : Edits, s.edits = replacements mode (Plan.scan store code) ∧
        ∀ err, ofCode store mode keyword code = .error err ↔ s.apply code.toList = .error err := by
    intro s artifact hedits heq
    refine ⟨s, hedits, fun err => ?_⟩
    rw [heq]
    split
    · next hempty =>
        rw [List.isEmpty_iff] at hempty
        have hnil : s.edits = [] := by rw [hedits, hempty]; cases mode <;> rfl
        simp [Edits.apply_eq_error_iff, hnil, Edits.ordered, Edits.firstError?]
    · rw [← Edits.applyText_eq_error_iff]
      cases s.applyText code <;> simp [Except.map]
  cases mode with
  | combined => exact hmade (Combined.edits_edits store keyword _) rfl
  | exportedModules => exact hmade (Exported.edits_edits store _) rfl

/-- The only error of packing names an entry inside another one. -/
theorem isInner_of_ofCode_error {err : EditError}
    (h : ofCode store mode keyword code = .error err) :
    ∃ e ∈ Plan.scan store code, Plan.IsInner store code e ∧ err = .overlapping e.span := by
  obtain ⟨s, hedits, herror⟩ := exists_edits store mode keyword code
  have hspans := map_span_replacements mode (Plan.scan store code)
  rw [← hedits] at hspans
  obtain ⟨front, x, back, horder, -, hoffence⟩ :=
    Edits.apply_eq_error_iff_first.mp ((herror err).mp h)
  -- The entries are in order, so that the edits in front of the refused one are earlier entries.
  have hordered : Edits.ordered s.edits = s.edits := by
    have hsorted : (s.edits.map Edit.span).Pairwise fun s t => s.start < t.start := by
      rw [hspans]
      exact List.pairwise_map.mpr ((Plan.pairwise_scan store code).imp And.left)
    refine List.mergeSort_of_pairwise ((List.pairwise_map.mp hsorted).imp fun hlt => ?_)
    simp [Edit.precedes, hlt]
  rw [hordered] at horder
  rw [horder, List.map_append, List.map_cons] at hspans
  obtain ⟨p, q, hscan, hfront, hback⟩ := List.map_eq_append_iff.mp hspans.symm
  obtain ⟨e, q, rfl, hx, -⟩ := List.map_eq_cons_iff.mp hback
  have he : e ∈ Plan.scan store code := by simp [hscan]
  have hfits : x.IsValid code.toList := by
    have hfits := Plan.isValid_of_mem_scan he x.replacement
    rwa [hx] at hfits
  refine ⟨e, he, ?_⟩
  rw [Edit.offence?, if_neg (not_not.mpr hfits)] at hoffence
  split at hoffence
  · next hoverlap =>
      cases hoffence
      obtain ⟨w, hw, hapart⟩ := hoverlap
      obtain ⟨d, hd, hspan⟩ : ∃ d ∈ p, d.span = w.span := by
        rw [← List.mem_map, hfront]
        exact List.mem_map_of_mem hw
      have hpairwise := Plan.pairwise_scan store code
      rw [hscan] at hpairwise
      have hde := (List.pairwise_append.mp hpairwise).2.2 d hd e List.mem_cons_self
      rw [hspan, hx] at hde
      exact ⟨hde.2.resolve_left fun hle => hapart (.inl hle), by rw [hx]⟩
  · cases hoffence

/-- Packing fails just when a planned import is inside another one: in the options of a call, or in
the clause or the attributes of a declaration. The entries of the plan are always parts of the unit,
and overlap in no other way. -/
theorem exists_ofCode_iff (store : AssetStore) (mode : PackMode) (keyword : AttributeKeyword)
    (code : String) :
    (∀ e ∈ Plan.scan store code, ∀ replacement,
        Edit.IsValid code.toList ⟨e.span, replacement⟩) ∧
      ((Plan.scan store code).KeepsApart ↔
        ∀ e ∈ Plan.scan store code, ¬Plan.IsInner store code e) ∧
      ((∃ packed, ofCode store mode keyword code = .ok packed) ↔
        (Plan.scan store code).KeepsApart) ∧
      ∀ err, ofCode store mode keyword code = .error err →
        ∃ e ∈ Plan.scan store code, Plan.IsInner store code e ∧ err = .overlapping e.span := by
  refine ⟨fun e he => Plan.isValid_of_mem_scan he, Plan.keepsApart_iff store code, ?_,
    fun err => isInner_of_ofCode_error⟩
  obtain ⟨s, hedits, herror⟩ := exists_edits store mode keyword code
  rw [Plan.keepsApart_iff_of_map_span (map_span_replacements mode _), ← hedits, ← not_iff_not,
    ← Edits.exists_error_iff]
  simp only [← herror]
  cases ofCode store mode keyword code <;> simp

/-- A call whose options hold an import of another kind: nothing in the plan is inside it. -/
theorem exists_ofCode_iff_beside_script :
    let store := (AssetStore.empty true).fill (.ofContent true ⟨"/a.css"⟩ ".a\x7b\x7d")
    let code := "const s = await import('./__sheetpack_styles-cf290c7a.css', " ++
      "\x7b with: \x7b type: 'css' \x7d, also: import('./b.js') \x7d);\n" ++
      "import('./__sheetpack_styles-cf290c7a.css', \x7b with: \x7b type: 'css' \x7d \x7d);\n"
    (Plan.scan store code).length = 2 ∧ (Plan.scan store code).KeepsApart ∧
      ∃ packed, ofCode store .combined .withClause code = .ok packed := by
  intro store code
  have hscan : Plan.scan store code =
      [⟨.dynamic (some "s") true, "./__sheetpack_styles-cf290c7a.css", ⟨10, 110⟩⟩,
        ⟨.dynamic none false, "./__sheetpack_styles-cf290c7a.css", ⟨112, 182⟩⟩] := by
    rw [Plan.scan, importNodes, tokenize, String.toList_append, String.toList_append,
      String.toList_ofList, String.toList_ofList, String.toList_ofList]
    decide +kernel
  obtain ⟨-, -, hok, -⟩ := exists_ofCode_iff store .combined .withClause code
  rw [hscan] at hok ⊢
  exact ⟨rfl, by decide, hok.mpr (by decide)⟩

/-- A call inside the options of another one: both are in the plan, and overlap. -/
theorem ofCode_combined_nested :
    let store := (AssetStore.empty true).fill (.ofContent true ⟨"/a.css"⟩ ".a\x7b\x7d")
    let code := "import('./__sheetpack_styles-cf290c7a.css', \x7b with: \x7b type: 'css' \x7d, " ++
      "also: import('./__sheetpack_styles-cf290c7a.css', \x7b with: \x7b type: 'css' \x7d \x7d)" ++
      " \x7d);\n"
    ¬(Plan.scan store code).KeepsApart ∧
      ofCode store .combined .withClause code = .error (.overlapping ⟨75, 145⟩) := by
  intro store code
  have hscan : Plan.scan store code =
      [⟨.dynamic none false, "./__sheetpack_styles-cf290c7a.css", ⟨0, 148⟩⟩,
        ⟨.dynamic none false, "./__sheetpack_styles-cf290c7a.css", ⟨75, 145⟩⟩] := by
    rw [Plan.scan, importNodes, tokenize, String.toList_append, String.toList_append,
      String.toList_ofList, String.toList_ofList, String.toList_ofList]
    decide +kernel
  obtain ⟨s, hedits, herror⟩ := exists_edits store .combined .withClause code
  refine ⟨by rw [hscan]; decide, (herror _).mpr (Edits.apply_eq_error_iff.mpr ?_)⟩
  rw [hedits, hscan, Edits.ordered, List.mergeSort_of_pairwise (by decide), String.toList_append,
    String.toList_append, String.toList_ofList, String.toList_ofList, String.toList_ofList]
  decide +kernel

end StyleBundler.PackedUnit
