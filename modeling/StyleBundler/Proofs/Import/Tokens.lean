import StyleBundler.Pack.Plan
import StyleBundler.Proofs.Edit.Validity
import StyleBundler.Proofs.Import.Extent
import StyleBundler.Proofs.Pack.Entry

/-!
Which tokens an import node takes up: those from its `import` on up to one that closes it
(`takesUp_of_importNodeAt?`). What packing replaces for it starts with the first of them or with
the `await` in front, so that it is always a part of the text (`isValid_of_mem_scan`).
-/

namespace StyleBundler.Script

open Text

/-- The span goes from the start of the first token to the end of the last one. -/
def TakesUp (s : Span) (ts : List Token) : Prop :=
  ∃ t z, ts.head? = some t ∧ ts.getLast? = some z ∧ s = ⟨t.span.start, z.span.stop⟩

theorem readProperties?_closes {ts rest : List Token} {found : List (String × Expr)} {stop : Nat}
    (h : readProperties? ts = some (found, stop, rest)) :
    ∃ inner z, ts = inner ++ z :: rest ∧ z.isPunct '\x7d' = true ∧ stop = z.span.stop := by
  induction hn : ts.length using Nat.strongRecOn generalizing ts found stop with
  | _ n ih =>
      cases ts with
      | nil => cases readProperties?_nil.symm.trans h
      | cons t ts =>
          rw [readProperties?_cons] at h
          split at h
          · next hclose =>
              cases h
              exact ⟨[], t, rfl, hclose, rfl⟩
          · obtain ⟨⟨value, left⟩, hvalue, h⟩ := Option.bind_eq_some_iff.mp h
            obtain ⟨left', hskip, h⟩ := Option.bind_eq_some_iff.mp h
            obtain ⟨⟨found', stop', rest'⟩, hfound, hr⟩ := Option.map_eq_some_iff.mp h
            cases hr
            have hoperand := length_entryOperand_le t ts
            have hleft := length_rest_readExpr?_lt hvalue
            have hleft' := length_skipComma?_le hskip
            rw [List.length_cons] at hn
            obtain ⟨inner, z, rfl, hclose, hz⟩ := ih left'.length (by omega) hfound rfl
            obtain ⟨front, hfront⟩ := ((skipComma?_suffix hskip).trans
              ((read_suffix _).1 _ _ _ (Nat.le_refl _) hvalue)).trans (entryOperand_suffix t ts)
            exact ⟨front ++ inner, z, by rw [← hfront, List.append_assoc], hclose, hz⟩

/-- The attributes of a declaration end with a brace, and nothing is taken without attributes. -/
theorem attributes?_closes {ts rest : List Token} {attributes : Option Attributes}
    (h : attributes? ts = some (attributes, rest)) :
    (attributes = none ∧ rest = ts) ∨
      ∃ a inner z, attributes = some a ∧ ts = inner ++ z :: rest ∧ z.isPunct '\x7d' = true ∧
        a.entries.span.stop = z.span.stop := by
  match ts with
  | [] | [_] =>
      cases h
      exact .inl ⟨rfl, rfl⟩
  | t :: brace :: ts =>
      rw [attributes?_cons_cons] at h
      split at h
      · split at h
        · split at h
          · obtain ⟨⟨found, stop, left⟩, hread, hr⟩ := Option.map_eq_some_iff.mp h
            cases hr
            obtain ⟨inner, z, rfl, hclose, hz⟩ := readProperties?_closes hread
            exact .inr ⟨_, t :: brace :: inner, z, rfl, rfl, hclose, hz⟩
          · cases h
            exact .inl ⟨rfl, rfl⟩
        · cases h
          exact .inl ⟨rfl, rfl⟩
      · cases h
        exact .inl ⟨rfl, rfl⟩

/-- A call ends with a parenthesis, and a declaration that has attributes with a brace or a
semicolon. -/
def ImportNode.ClosedBy (z : Token) : ImportNode → Prop
  | .declaration d =>
      d.attributes.isSome = true → z.isPunct '\x7d' = true ∨ z.isPunct ';' = true
  | .call _ => z.isPunct ')' = true

/-- A declaration goes from its `import` up to its specifier, its attributes or its semicolon. -/
theorem declaration?_closes {start : Nat} {word : Token} {ts : List Token} {name : String}
    {d : ImportDeclaration} (hword : word.kind = .ident name)
    (h : declaration? start ts = some d) :
    ∃ inner z rest, word :: ts = word :: inner ++ z :: rest ∧ d.span = ⟨start, z.span.stop⟩ ∧
      (ImportNode.declaration d).ClosedBy z := by
  obtain ⟨bound, rest, left, hclause, hattributes, -, -, hspan⟩ :=
    exists_readClause?_of_declaration? h
  obtain ⟨front, a, aName, heq, hname⟩ := readClause?_foothold hword hclause
  obtain ⟨_, defaultName, namespaceName, source, span, attributes⟩ := d
  dsimp only at hattributes heq hspan
  subst hspan
  -- The last token so far, to which a semicolon may be added.
  obtain ⟨inner, z, hts, hclosed, hz⟩ : ∃ inner z, ts = inner ++ z :: left ∧
      (attributes.isSome = true → z.isPunct '\x7d' = true) ∧
      ((attributes.map (·.entries.span)).getD span).stop = z.span.stop := by
    have hspecifier : ∃ inner, ts = inner ++ ⟨.str source, span⟩ :: rest := by
      cases front with
      | nil => exact ⟨[], (List.cons.inj heq).2⟩
      | cons t front => exact ⟨front ++ [a], by simpa using (List.cons.inj heq).2⟩
    obtain ⟨inner, hinner⟩ := hspecifier
    rcases attributes?_closes hattributes with
      ⟨rfl, rfl⟩ | ⟨found, more, z, rfl, hmore, hclose, hz⟩
    · exact ⟨inner, _, hinner, nofun, rfl⟩
    · exact ⟨inner ++ ⟨.str source, span⟩ :: more, z, by rw [hinner, hmore]; simp,
        fun _ => hclose, hz⟩
  cases left with
  | nil =>
      exact ⟨inner, z, [], by rw [hts]; rfl, by simp [declarationEnd, hz],
        fun hsome => .inl (hclosed hsome)⟩
  | cons t left =>
      by_cases hsemicolon : t.isPunct ';' = true
      · exact ⟨inner ++ [z], t, left, by rw [hts]; simp, by simp [declarationEnd, hsemicolon],
          fun _ => .inr hsemicolon⟩
      · exact ⟨inner, z, t :: left, by rw [hts]; rfl,
          by simp [declarationEnd, hsemicolon, hz], fun hsome => .inl (hclosed hsome)⟩

/-- A node takes up the tokens from its first one to one that closes it. -/
theorem takesUp_of_importNodeAt? {before ts : List Token} {t : Token} {n : ImportNode}
    (h : importNodeAt? before t ts = some n) :
    ∃ inner rest, t :: ts = t :: inner ++ rest ∧ TakesUp n.span (t :: inner) ∧
      ∃ z, (t :: inner).getLast? = some z ∧ n.ClosedBy z := by
  have htakes : ∀ (inner : List Token) {rest : List Token} {z : Token},
      t :: ts = t :: inner ++ z :: rest → n.span = ⟨t.span.start, z.span.stop⟩ →
      n.ClosedBy z →
      ∃ inner rest, t :: ts = t :: inner ++ rest ∧ TakesUp n.span (t :: inner) ∧
        ∃ z, (t :: inner).getLast? = some z ∧ n.ClosedBy z := by
    intro inner rest z hts hspan hclosed
    have hlast : (t :: (inner ++ [z])).getLast? = some z := by
      rw [← List.cons_append, List.getLast?_concat]
    exact ⟨inner ++ [z], rest, by rw [hts]; simp, ⟨t, z, rfl, hlast, hspan⟩, z, hlast, hclosed⟩
  obtain ⟨hword, -, ⟨paren, rest, c, rfl, -, hc, rfl⟩ | ⟨d, -, hd, rfl⟩⟩ :=
    importNodeAt?_cases h
  · obtain ⟨inner, z, left, rfl, hspan, hclosed⟩ := exists_stop_of_call? hc
    exact htakes (paren :: inner) rfl hspan hclosed
  · obtain ⟨inner, z, left, hts, hspan, hclosed⟩ := declaration?_closes hword hd
    exact htakes inner hts hspan hclosed

theorem mem_importNodesFrom {before front back : List Token} {t : Token} {n : ImportNode}
    (h : importNodeAt? (front.reverse ++ before) t back = some n) :
    n ∈ importNodesFrom before (front ++ t :: back) := by
  induction front generalizing before with
  | nil =>
      rw [List.nil_append, importNodesFrom, List.mem_append, Option.mem_toList]
      exact .inl h
  | cons u front ih =>
      rw [List.cons_append, importNodesFrom, List.mem_append]
      exact .inr (ih (by simpa using h))

/-- An awaited variable is initialised from the `await` in front of the call on. -/
theorem exists_await_of_callBinding? {call : Span} {before : List Token} {b : CallBinding}
    (h : callBinding? call before = some b) (hawaited : b.awaited = true) :
    ∃ w more, before = w :: more ∧ w.kind = .ident "await" ∧
      b.initialiser = ⟨w.span.start, call.stop⟩ := by
  rw [callBinding?_eq] at h
  cases before with
  | nil => cases h
  | cons w more =>
      dsimp only at h
      split at h
      · next hawait =>
          obtain ⟨name, -, rfl⟩ := Option.map_eq_some_iff.mp h
          exact ⟨w, more, rfl, beq_iff_eq.mp hawait, rfl⟩
      · obtain ⟨name, -, rfl⟩ := Option.map_eq_some_iff.mp h
        cases hawaited

theorem binding_of_importNodeAt? {before ts : List Token} {t : Token} {c : ImportCall}
    (h : importNodeAt? before t ts = some (.call c)) :
    c.binding = callBinding? c.span before := by
  obtain ⟨-, -, ⟨paren, rest, c', rfl, -, hc, hnode⟩ | ⟨d, -, -, hnode⟩⟩ :=
    importNodeAt?_cases h
  · cases hnode
    obtain ⟨rest, z, left, -, -, -, -, hbinding⟩ := exists_readExpr?_of_call? hc
    exact hbinding
  · cases hnode

/-- Tokens one behind the other take up a part of the text. -/
theorem TakesUp.isValid {code : String} {front ts back : List Token} {s : Span}
    (h : TakesUp s ts) (htokens : tokenize code = front ++ (ts ++ back)) (replacement : String) :
    Edit.IsValid code.toList ⟨s, replacement⟩ := by
  obtain ⟨t, z, ht, hz, rfl⟩ := h
  have hts : ∀ u ∈ ts, u ∈ tokenize code := fun u hu => by simp [htokens, hu]
  have hle : t.span.start ≤ z.span.start := by
    have hpairwise := pairwise_tokenize code
    rw [htokens] at hpairwise
    have hpairwise := (List.pairwise_append.mp (List.pairwise_append.mp hpairwise).2.1).1
    cases ts with
    | nil => cases ht
    | cons u ts =>
        cases ht
        rcases List.mem_cons.mp (List.mem_of_getLast? hz) with rfl | hmem
        · exact Nat.le_refl _
        · exact Nat.le_of_lt ((List.pairwise_cons.mp hpairwise).1 z hmem)
  obtain ⟨part, hpart⟩ := exists_slice_between (hts t (List.mem_of_head? ht))
    (hts z (List.mem_of_getLast? hz)) hle
  rw [Edit.isValid_iff_fits, Edit.fits, hpart]
  rfl

end StyleBundler.Script

namespace StyleBundler.Plan

open Script

theorem exists_node_of_importOf? {store : AssetStore} {n : ImportNode} {e : PlannedImport}
    (h : importOf? store n = some e) : n.isCss = true ∧ e = entryOf e.reference n := by
  rw [importOf?_eq] at h
  split at h
  · next hcss =>
      obtain ⟨reference, -, h⟩ := Option.bind_eq_some_iff.mp h
      split at h
      · cases h
        refine ⟨hcss, ?_⟩
        cases n <;> rfl
      · cases h
  · cases h

/-- The tokens `ts` of the unit, behind `front`, are those that packing replaces for the entry. -/
structure Replaces (e : PlannedImport) (front ts : List Token) : Prop where
  takesUp : TakesUp e.span ts
  word : ∃ t, ts.head? = some t ∧ (t.kind = .ident "import" ∨ t.kind = .ident "await")
  call : e.isDeclaration = false → ∃ z, ts.getLast? = some z ∧ z.isPunct ')' = true
  declaration : e.isDeclaration = true →
    ∃ z, ts.getLast? = some z ∧ (z.isPunct '\x7d' = true ∨ z.isPunct ';' = true)
  /-- No declaration stands behind a dot. -/
  undotted : e.isDeclaration = true → front.getLast?.any (·.isPunct '.') = false

theorem exists_replaces {store : AssetStore} {code : String} {front back : List Token} {t : Token}
    {n : ImportNode} {e : PlannedImport} (htokens : tokenize code = front ++ t :: back)
    (hread : importNodeAt? front.reverse t back = some n) (he : importOf? store n = some e) :
    ∃ front ts back, tokenize code = front ++ (ts ++ back) ∧ t ∈ ts ∧ Replaces e front ts := by
  obtain ⟨inner, rest, hts, htakes, z, hz, hclosed⟩ := takesUp_of_importNodeAt? hread
  obtain ⟨hword, hdot, -⟩ := importNodeAt?_cases hread
  obtain ⟨hcss, heq⟩ := exists_node_of_importOf? he
  rw [hts] at htokens
  rw [heq]
  cases n with
  | declaration d =>
      refine ⟨front, t :: inner, rest, htokens, List.mem_cons_self,
        ⟨htakes, ⟨t, rfl, .inl hword⟩, Bool.noConfusion, ?_, ?_⟩⟩
      · refine fun _ => ⟨z, hz, hclosed ?_⟩
        cases hattributes : d.attributes with
        | none =>
            simp only [ImportNode.isCss, Import.isCssDeclaration, hattributes, Option.any_none]
              at hcss
            cases hcss
        | some a => rfl
      · rw [List.head?_reverse] at hdot
        exact fun _ => hdot
  | call c =>
      have hcall : ∀ (span : Span) (name : Option String) (awaited : Bool) (front ts : List Token),
          TakesUp span ts →
          (∃ t, ts.head? = some t ∧ (t.kind = .ident "import" ∨ t.kind = .ident "await")) →
          ts.getLast? = some z →
          Replaces ⟨.dynamic name awaited, e.reference, span⟩ front ts :=
        fun span name awaited front ts htakes hword hz =>
          ⟨htakes, hword, fun _ => ⟨z, hz, hclosed⟩, Bool.noConfusion, Bool.noConfusion⟩
      have hbinding := binding_of_importNodeAt? hread
      rw [entryOf, callBinding]
      split
      · next b hb =>
          split
          · next hawaited =>
              rw [hb] at hbinding
              obtain ⟨w, more, hfront, hw, hspan⟩ :=
                exists_await_of_callBinding? hbinding.symm hawaited
              rw [List.reverse_eq_cons_iff] at hfront
              have hlast : (w :: t :: inner).getLast? = some z := by
                rwa [List.getLast?_cons_cons]
              refine ⟨more.reverse, w :: t :: inner, rest, by rw [htokens, hfront]; simp,
                by simp, hcall _ _ _ _ _ ?_ ⟨w, rfl, .inr hw⟩ hlast⟩
              obtain ⟨t', z', ht', hz', hspan'⟩ := htakes
              cases hz.symm.trans hz'
              refine ⟨w, z, rfl, hlast, ?_⟩
              rw [hspan]
              exact congrArg _ (congrArg Span.stop hspan')
          · exact ⟨front, t :: inner, rest, htokens, List.mem_cons_self,
              hcall _ _ _ _ _ htakes ⟨t, rfl, .inl hword⟩ hz⟩
      · exact ⟨front, t :: inner, rest, htokens, List.mem_cons_self,
          hcall _ _ _ _ _ htakes ⟨t, rfl, .inl hword⟩ hz⟩

theorem exists_replaces_of_mem_scan {store : AssetStore} {code : String} {e : PlannedImport}
    (h : e ∈ scan store code) :
    ∃ front ts back, tokenize code = front ++ (ts ++ back) ∧ Replaces e front ts := by
  obtain ⟨n, hn, he⟩ := List.mem_filterMap.mp h
  obtain ⟨front, t, back, htokens, hread⟩ := exists_split_of_mem_importNodesFrom hn
  rw [List.append_nil] at hread
  obtain ⟨front, ts, back, htokens, -, hreplaces⟩ := exists_replaces htokens hread he
  exact ⟨front, ts, back, htokens, hreplaces⟩

theorem isValid_of_mem_scan {store : AssetStore} {code : String} {e : PlannedImport}
    (h : e ∈ scan store code) (replacement : String) :
    Edit.IsValid code.toList ⟨e.span, replacement⟩ := by
  obtain ⟨front, ts, back, htokens, hreplaces⟩ := exists_replaces_of_mem_scan h
  exact hreplaces.takesUp.isValid htokens replacement

end StyleBundler.Plan
