import StyleBundler.Proofs.Import.Attributes
import StyleBundler.Proofs.Import.Clause
import StyleBundler.Proofs.Import.Tokens
import StyleBundler.Proofs.Script.Layout

/-!
The grammar of import declarations, and how they are read back. Declarations that are laid out one
behind the other, with any white space and comments between their tokens, are read one by one, each
with what was printed (`importNodes_printed`). Inside of their braces the word `import` can be a
name as well: no declaration is read there, for it would have to end in front of the closing brace
(`importNodeAt?_inner`).
-/

namespace StyleBundler.Script

open Text

namespace ImportClause

def items : ImportClause → List ImportItem
  | plain _ | whole .. => []
  | listed _ items _ => items

/-- The default name in front, if there is one. -/
def leadName? : ImportClause → Option String
  | plain name => some name
  | whole defaultName _ | listed defaultName .. => defaultName

end ImportClause

/-- The local name of an item. -/
def ImportItem.localName : ImportItem → String
  | named name => name
  | renamed _ localName | quoted _ localName => localName

namespace ImportClause

/-- The names that the clause binds. -/
def localNames (c : ImportClause) : List String :=
  c.leadName?.toList ++ c.wholeName?.toList ++ c.items.map ImportItem.localName

/-- Of the reserved words `import` is the only one that matters as a name that is bound. -/
structure IsUnambiguous (c : ImportClause) : Prop where
  locals : "import" ∉ c.localNames
  lead : c.leadName? ≠ some "from"
  unquoted : ∀ item ∈ c.items, item.quotesDefault = false

/-- What is read of such a clause is the first name that it gives to the default export. -/
theorem IsUnambiguous.keptName?_eq {c : ImportClause} (h : c.IsUnambiguous) :
    c.keptName? = c.defaultNames.head? := by
  cases c with
  | plain name => rfl
  | whole defaultName name =>
      rw [defaultNames, Option.head?_toList]
      exact filter_ne_from h.lead
  | listed defaultName items trailingComma =>
      exact keptName?_listed h.lead h.unquoted trailingComma

end ImportClause

section Inner

/-- What stands between the braces of a declaration: names and strings with commas and colons, and
no string right behind a name. -/
structure IsInner (ks : List TokenKind) : Prop where
  plain : ∀ k ∈ ks, (∃ name, k = .ident name) ∨ (∃ value, k = .str value) ∨
    k = .punct ',' ∨ k = .punct ':'
  apart : ks.IsChain fun k k' => k.isWord = true → ∀ value, k' ≠ .str value

namespace IsInner

variable {k : TokenKind} {ks ks' : List TokenKind}

theorem nil : IsInner [] := ⟨nofun, .nil⟩

theorem tail (h : IsInner (k :: ks)) : IsInner ks :=
  ⟨fun k' hk' => h.plain k' (List.mem_cons_of_mem k hk'), h.apart.tail⟩

theorem comma (h : IsInner ks) (h' : IsInner ks') : IsInner (ks ++ .punct ',' :: ks') := by
  refine ⟨fun k hk => ?_, h.apart.append (h'.apart.cons nofun) ?_⟩
  · rcases List.mem_append.mp hk with hk | hk
    · exact h.plain k hk
    · rcases List.mem_cons.mp hk with rfl | hk
      · exact .inr (.inr (.inl rfl))
      · exact h'.plain k hk
  · intro k _ k' hk' _ value
    cases hk'
    exact nofun

end IsInner

theorem isInner_item (item : ImportItem) : IsInner item.kinds := by
  cases item <;> refine ⟨?_, ?_⟩ <;> simp [ImportItem.kinds, TokenKind.isWord]

theorem isInner_items (items : List ImportItem) : IsInner (ImportItem.listKinds items) := by
  fun_induction ImportItem.listKinds items with
  | case1 => exact .nil
  | case2 item => exact isInner_item item
  | case3 item next items ih => exact (isInner_item item).comma ih

theorem isInner_entry (e : AttributeEntry) : IsInner e.kinds := by
  obtain ⟨key, value⟩ := e
  cases key <;> refine ⟨?_, ?_⟩ <;>
    simp [AttributeEntry.kinds, AttributeKey.kind, TokenKind.isWord]

theorem isInner_entries (trailingComma : Bool) (es : List AttributeEntry) :
    IsInner (AttributeEntry.listKinds trailingComma es) := by
  fun_induction AttributeEntry.listKinds trailingComma es with
  | case1 => exact .nil
  | case2 e =>
      split
      · exact (isInner_entry e).comma .nil
      · rw [List.append_nil]
        exact isInner_entry e
  | case3 e next es ih => exact (isInner_entry e).comma ih

variable {t close : Token} {us : List Token}

theorem leadingString?_inner (hword : t.kind.isWord = true)
    (h : IsInner ((t :: us).map Token.kind)) (hclose : close.kind = .punct '\x7d')
    (rest : List Token) : leadingString? (us ++ close :: rest) = none := by
  cases us with
  | nil => simp [leadingString?, hclose]
  | cons u us =>
      have hu : ∀ value, u.kind ≠ .str value := (List.isChain_cons_cons.mp h.apart).1 hword
      rw [List.cons_append, leadingString?]
      split
      · next hkind => exact absurd hkind (hu _)
      · rfl

/-- No clause goes on behind a closing brace that belongs to what is around it. -/
theorem clause?_inner (h : IsInner (us.map Token.kind)) (hclose : close.kind = .punct '\x7d')
    (first : Bool) (found : ClauseBindings) (rest : List Token) :
    clause? first 0 found (us ++ close :: rest) = none := by
  induction us generalizing first found with
  | nil => simp [clause?, hclose]
  | cons u us ih =>
      have hrest := fun first found => ih h.tail first found
      rw [List.cons_append]
      rcases h.plain u.kind List.mem_cons_self with ⟨name, hu⟩ | ⟨value, hu⟩ | hu | hu
      · rw [clause?_outer hu fun _ => .inr (leadingString?_inner (by rw [hu]; rfl) h hclose rest),
          hrest]
      · rw [clause?_string hu, hrest]
      · rw [clause?_sign hu (by decide), hrest]
      · rw [clause?_sign hu (by decide), hrest]

/-- No node is read between the braces of a declaration. -/
theorem importNodeAt?_inner (h : IsInner ((t :: us).map Token.kind))
    (hclose : close.kind = .punct '\x7d') (before rest : List Token) :
    importNodeAt? before t (us ++ close :: rest) = none := by
  rw [Option.eq_none_iff_forall_ne_some]
  intro n hn
  obtain ⟨ht, -, ⟨paren, rest', c, hparen, hkind, -⟩ | ⟨d, -, hd, -⟩⟩ := importNodeAt?_cases hn
  · cases us with
    | nil =>
        cases hparen
        cases hkind.symm.trans hclose
    | cons u us =>
        cases hparen
        simpa [hkind] using h.plain paren.kind (by simp)
  · obtain ⟨bound, left, left', hread, -⟩ := exists_readClause?_of_declaration? hd
    rw [readClause?, leadingString?_inner (by rw [ht]; rfl) h hclose] at hread
    cases hread.symm.trans (clause?_inner h.tail hclose _ _ _)

theorem importNodesFrom_inner (h : IsInner (us.map Token.kind))
    (hclose : close.kind = .punct '\x7d') (before rest : List Token) :
    importNodesFrom before (us ++ close :: rest) =
      importNodesFrom (us.reverse ++ before) (close :: rest) := by
  induction us generalizing before with
  | nil => rfl
  | cons u us ih =>
      rw [List.cons_append, importNodesFrom, importNodeAt?_inner h hclose, ih h.tail]
      simp

end Inner

section Passed

/-- No node is read at these tokens, whatever stands around them. -/
def Passed (ts : List Token) : Prop :=
  ∀ before rest, importNodesFrom before (ts ++ rest) = importNodesFrom (ts.reverse ++ before) rest

theorem Passed.nil : Passed [] := fun _ _ => rfl

theorem Passed.append {ts us : List Token} (h : Passed ts) (h' : Passed us) :
    Passed (ts ++ us) := by
  intro before rest
  rw [List.append_assoc, h, h', List.reverse_append, List.append_assoc]

theorem Passed.of_notMem {ts : List Token} (h : .ident "import" ∉ ts.map Token.kind) :
    Passed ts := by
  intro before rest
  induction ts generalizing before with
  | nil => rfl
  | cons t ts ih =>
      rw [List.map_cons, List.mem_cons, not_or] at h
      have ht : t.isIdent "import" = false := beq_eq_false_iff_ne.mpr fun heq => h.1 heq.symm
      have hnone : importNodeAt? before t (ts ++ rest) = none := by simp [importNodeAt?, ht]
      rw [List.cons_append, importNodesFrom, hnone, ih h.2]
      simp

/-- Between braces no node is read, and none at the braces. -/
theorem Passed.of_isInner {ts : List Token} {ks : List TokenKind}
    (hts : ts.map Token.kind = .punct '\x7b' :: (ks ++ [.punct '\x7d'])) (h : IsInner ks) :
    Passed ts := by
  obtain ⟨opening, ts, rfl, hopening, hts⟩ := List.map_eq_cons_iff.mp hts
  obtain ⟨us, last, rfl, rfl, hlast⟩ := List.map_eq_append_iff.mp hts
  obtain ⟨close, last, rfl, hclose, hnil⟩ := List.map_eq_cons_iff.mp hlast
  obtain rfl := List.map_eq_nil_iff.mp hnil
  have hsign : ∀ (t : Token) (c : Char), t.kind = .punct c → Passed [t] := by
    intro t c ht
    exact .of_notMem (by simp [ht])
  have hbehind : Passed (us ++ [close]) := by
    intro before rest
    have hlast := hsign close _ hclose (us.reverse ++ before) rest
    rw [List.append_assoc, List.singleton_append, importNodesFrom_inner h hclose,
      ← List.singleton_append, hlast]
    simp
  exact (hsign opening _ hopening).append hbehind

end Passed

theorem ImportClause.passed {c : ImportClause} (h : c.IsUnambiguous) {ts : List Token}
    (hts : ts.map Token.kind = c.kinds) : Passed ts := by
  have hlocals := h.locals
  have hlead : ∀ {defaultName : Option String} {ts : List Token}, some "import" ≠ defaultName →
      ts.map Token.kind = leadKinds defaultName → Passed ts := by
    intro defaultName ts hname hts
    refine .of_notMem ?_
    rw [hts]
    cases defaultName with
    | none => simp [leadKinds]
    | some name => simpa [leadKinds] using hname
  cases c with
  | plain name =>
      refine .of_notMem ?_
      rw [hts]
      simpa [localNames, leadName?, wholeName?, items, kinds] using hlocals
  | whole defaultName name =>
      simp only [localNames, leadName?, wholeName?, items, List.mem_append, Option.mem_toList,
        not_or] at hlocals
      obtain ⟨lead, back, rfl, hfront, hback⟩ := List.map_eq_append_iff.mp hts
      refine (hlead (fun heq => hlocals.1.1 heq.symm) hfront).append (.of_notMem ?_)
      rw [hback]
      simpa using fun heq : "import" = name => hlocals.1.2 (congrArg some heq.symm)
  | listed defaultName items trailingComma =>
      simp only [localNames, leadName?, wholeName?, List.mem_append, Option.mem_toList,
        not_or] at hlocals
      obtain ⟨lead, back, rfl, hfront, hback⟩ := List.map_eq_append_iff.mp hts
      refine (hlead (fun heq => hlocals.1.1 heq.symm) hfront).append ?_
      rw [← List.append_assoc] at hback
      refine .of_isInner hback ?_
      cases trailingComma with
      | false =>
          rw [if_neg (by decide), List.append_nil]
          exact isInner_items items
      | true => exact (isInner_items items).comma .nil

theorem AttributeClause.passed {a : AttributeClause} {ts : List Token}
    (hts : ts.map Token.kind = a.kinds) : Passed ts := by
  obtain ⟨word, ts, rfl, hword, hts⟩ := List.map_eq_cons_iff.mp hts
  have hkeyword : Passed [word] := by
    refine .of_notMem ?_
    rw [List.map_singleton, hword]
    cases a.keyword <;> decide
  exact hkeyword.append (.of_isInner hts (isInner_entries _ _))

/-- An import declaration: `import`, perhaps a clause with its `from`, and a specifier. -/
structure ImportStatement where
  clause : Option ImportClause
  source : String
  attributes : Option AttributeClause
  semicolon : Bool
  unambiguous : ∀ c ∈ clause, c.IsUnambiguous

namespace ImportStatement

def clauseKinds (s : ImportStatement) : List TokenKind :=
  s.clause.elim [] fun c => c.kinds ++ [.ident "from"]

def leadKinds (s : ImportStatement) : List TokenKind := .ident "import" :: s.clauseKinds

def endKinds (s : ImportStatement) : List TokenKind :=
  s.attributes.elim [] AttributeClause.kinds ++ if s.semicolon then [.punct ';'] else []

def kinds (s : ImportStatement) : List TokenKind := s.leadKinds ++ .str s.source :: s.endKinds

/-- What is read of the statement, where its tokens are `ts`: the spans of the whole and of the
specifier, the specifier, the default export under its first name, the namespace and the
attributes. -/
structure IsReadAs (s : ImportStatement) (ts : List Token) (d : ImportDeclaration) : Prop where
  span : TakesUp d.span ts
  source : d.source = s.source
  specifier : ts[s.leadKinds.length]? = some ⟨.str s.source, d.sourceSpan⟩
  defaultBinding : d.defaultBinding = s.clause.bind fun c => c.defaultNames.head?
  namespaceBinding : d.namespaceBinding = s.clause.bind ImportClause.wholeName?
  attributes : d.attributes.map Attributes.texts = s.attributes.map AttributeClause.texts

section Reading

variable {s : ImportStatement} {before clause tail rest : List Token} {word spec : Token}

theorem clause_cases (hclause : clause.map Token.kind = s.clauseKinds) :
    (s.clause = none ∧ clause = []) ∨
      ∃ c front keyword, s.clause = some c ∧ clause = front ++ [keyword] ∧
        front.map Token.kind = c.kinds ∧ keyword.kind = .ident "from" := by
  rw [clauseKinds] at hclause
  cases hs : s.clause with
  | none =>
      rw [hs] at hclause
      exact .inl ⟨rfl, List.map_eq_nil_iff.mp hclause⟩
  | some c =>
      rw [hs] at hclause
      obtain ⟨front, last, rfl, hfront, hlast⟩ := List.map_eq_append_iff.mp hclause
      obtain ⟨keyword, last, rfl, hkeyword, hnil⟩ := List.map_eq_cons_iff.mp hlast
      obtain rfl := List.map_eq_nil_iff.mp hnil
      exact .inr ⟨c, front, keyword, rfl, rfl, hfront, hkeyword⟩

theorem semicolon_cases {semicolon : Bool}
    (htail : tail.map Token.kind = if semicolon then [.punct ';'] else []) :
    tail = [] ∨ ∃ t, tail = [t] ∧ t.kind = .punct ';' := by
  cases semicolon with
  | true =>
      obtain ⟨t, tail, rfl, ht, hnil⟩ := List.map_eq_cons_iff.mp htail
      obtain rfl := List.map_eq_nil_iff.mp hnil
      exact .inr ⟨t, rfl, ht⟩
  | false => exact .inl (List.map_eq_nil_iff.mp htail)

theorem readClause?_eq (hclause : clause.map Token.kind = s.clauseKinds)
    (hspec : spec.kind = .str s.source) :
    readClause? (clause ++ spec :: rest) =
      some (⟨s.clause.bind fun c => c.defaultNames.head?, s.clause.bind ImportClause.wholeName?⟩,
        s.source, spec.span, rest) := by
  obtain ⟨hs, rfl⟩ | ⟨c, front, keyword, hs, rfl, hfront, hkeyword⟩ := clause_cases hclause
  · simp [readClause?, leadingString?, hspec, hs]
  · rw [List.append_assoc, List.singleton_append, readClause?_of_kinds hfront hkeyword hspec,
      (s.unambiguous c hs).keptName?_eq, hs]
    rfl

/-- A clause or a specifier, whichever comes first, makes no call. -/
theorem head?_clause (hclause : clause.map Token.kind = s.clauseKinds)
    (hspec : spec.kind = .str s.source) (rest : List Token) :
    ∃ t ts, clause ++ spec :: rest = t :: ts ∧ t.kind ≠ .punct '(' ∧ t.kind ≠ .punct '.' := by
  obtain ⟨-, rfl⟩ | ⟨c, front, keyword, -, rfl, hfront, -⟩ := clause_cases hclause
  · exact ⟨spec, rest, rfl, by simp [hspec]⟩
  · obtain ⟨k, ks, hkinds, hcall, hdot⟩ := c.exists_kinds
    obtain ⟨t, ts, rfl, rfl, -⟩ := List.map_eq_cons_iff.mp (hfront.trans hkinds)
    exact ⟨t, ts ++ [keyword] ++ spec :: rest, rfl, hcall, hdot⟩

/-- Behind a statement stands the next one, or nothing. -/
def NextOrEnd (rest : List Token) : Prop := ∀ t ∈ rest.head?, t.kind = .ident "import"

theorem declarationEnd_eq {stop : Nat} (htail : tail = [] ∨ ∃ t, tail = [t] ∧ t.kind = .punct ';')
    (hrest : NextOrEnd rest) :
    declarationEnd stop (tail ++ rest) = (tail.getLast?.map (·.span.stop)).getD stop := by
  obtain rfl | ⟨t, rfl, ht⟩ := htail
  · cases rest with
    | nil => rfl
    | cons t rest => simp [declarationEnd, Token.isPunct, hrest t rfl]
  · simp [declarationEnd, Token.isPunct, ht]

theorem attributes?_end (htail : tail = [] ∨ ∃ t, tail = [t] ∧ t.kind = .punct ';')
    (hrest : NextOrEnd rest) : attributes? (tail ++ rest) = some (none, tail ++ rest) := by
  refine attributes?_eq_none fun t name ht hname => ?_
  obtain rfl | ⟨u, rfl, hu⟩ := htail
  · cases (hrest t ht).symm.trans hname
    rfl
  · cases ht
    cases hu.symm.trans hname

/-- Behind the specifier the attributes are read, and the statement ends with its last token. -/
theorem exists_attributes? (htail : tail.map Token.kind = s.endKinds) (hrest : NextOrEnd rest)
    (spec : Token) :
    ∃ found left z, attributes? (tail ++ rest) = some (found, left) ∧
      (spec :: tail).getLast? = some z ∧
      declarationEnd ((found.map (·.entries.span)).getD spec.span).stop left = z.span.stop ∧
      found.map Attributes.texts = s.attributes.map AttributeClause.texts := by
  obtain ⟨listed, semicolon, rfl, hlisted, hlast⟩ := List.map_eq_append_iff.mp htail
  have hsemicolon := semicolon_cases hlast
  cases hs : s.attributes with
  | none =>
      rw [hs] at hlisted
      obtain rfl := List.map_eq_nil_iff.mp hlisted
      refine ⟨none, _, _, attributes?_end hsemicolon hrest, List.getLast?_cons, ?_, rfl⟩
      rw [List.nil_append, declarationEnd_eq hsemicolon hrest]
      cases semicolon.getLast? <;> rfl
  | some a =>
      rw [hs] at hlisted
      obtain ⟨found, z, hread, hlast, hstop, htexts⟩ :=
        exists_attributes?_of_kinds hlisted (semicolon ++ rest)
      refine ⟨some found, _, semicolon.getLast?.getD z, by rw [List.append_assoc, hread], ?_, ?_,
        congrArg some htexts⟩
      · rw [← List.cons_append, List.getLast?_append, List.getLast?_cons, hlast]
        cases semicolon.getLast? <;> rfl
      · rw [declarationEnd_eq hsemicolon hrest, Option.map_some, Option.getD_some, hstop]
        cases semicolon.getLast? <;> rfl

theorem passed (hclause : clause.map Token.kind = s.clauseKinds)
    (hspec : spec.kind = .str s.source) (htail : tail.map Token.kind = s.endKinds) :
    Passed (clause ++ spec :: tail) := by
  obtain ⟨listed, semicolon, rfl, hlisted, hlast⟩ := List.map_eq_append_iff.mp htail
  have hfront : Passed clause := by
    obtain ⟨-, rfl⟩ | ⟨c, front, keyword, hs, rfl, hfront, hkeyword⟩ := clause_cases hclause
    · exact .nil
    · have hfrom : Passed [keyword] := .of_notMem (by simp [hkeyword])
      exact (ImportClause.passed (s.unambiguous c hs) hfront).append hfrom
  have hmiddle : Passed [spec] := .of_notMem (by simp [hspec])
  have hlisted : Passed listed := by
    cases hs : s.attributes with
    | none =>
        rw [hs] at hlisted
        obtain rfl := List.map_eq_nil_iff.mp hlisted
        exact .nil
    | some a =>
        rw [hs] at hlisted
        exact a.passed hlisted
  have hend : Passed semicolon := by
    obtain rfl | ⟨t, rfl, ht⟩ := semicolon_cases hlast
    · exact .nil
    · exact .of_notMem (by simp [ht])
  exact hfront.append (hmiddle.append (hlisted.append hend))

/-- One statement is read as one declaration, and nothing else is read of it. -/
theorem importNodesFrom_append {ts : List Token} (hts : ts.map Token.kind = s.kinds)
    (hbefore : before.head?.any (·.isPunct '.') = false) (hrest : NextOrEnd rest) :
    ∃ d, importNodesFrom before (ts ++ rest) =
        .declaration d :: importNodesFrom (ts.reverse ++ before) rest ∧ s.IsReadAs ts d := by
  obtain ⟨lead, tail, rfl, hlead, htail⟩ := List.map_eq_append_iff.mp hts
  obtain ⟨word, clause, rfl, hword, hclause⟩ := List.map_eq_cons_iff.mp hlead
  obtain ⟨spec, tail, rfl, hspec, htail⟩ := List.map_eq_cons_iff.mp htail
  obtain ⟨found, left, z, hattributes, hlast, hstop, hlists⟩ := exists_attributes? htail hrest spec
  let d : ImportDeclaration := ⟨⟨word.span.start, z.span.stop⟩,
    s.clause.bind fun c => c.defaultNames.head?, s.clause.bind ImportClause.wholeName?, s.source,
    spec.span, found⟩
  have hd : declaration? word.span.start (clause ++ spec :: (tail ++ rest)) = some d := by
    rw [declaration?_eq, readClause?_eq hclause hspec]
    simp [hattributes, hstop, d]
  have hnode : importNodeAt? before word (clause ++ spec :: (tail ++ rest)) =
      some (.declaration d) := by
    obtain ⟨t, ts, hhead, hcall, hdot⟩ := head?_clause hclause hspec (tail ++ rest)
    have hparen : t.isPunct '(' = false := beq_eq_false_iff_ne.mpr hcall
    have hmeta : t.isPunct '.' = false := beq_eq_false_iff_ne.mpr hdot
    rw [hhead] at hd ⊢
    simp [importNodeAt?, Token.isIdent, hword, hbefore, hparen, hmeta, hd]
  refine ⟨d, ?_, ⟨⟨word, z, rfl, ?_, rfl⟩, rfl, ?_, rfl, rfl, hlists⟩⟩
  · have hpassed := passed hclause hspec htail (word :: before) rest
    rw [List.append_assoc, List.cons_append] at hpassed
    rw [List.cons_append, List.cons_append, importNodesFrom, List.append_assoc, List.cons_append,
      hnode, hpassed]
    simp
  · rw [List.getLast?_append, hlast]
    rfl
  · have hlength : (word :: clause).length = s.leadKinds.length := by
      rw [← hlead, List.length_map]
    rw [← hlength, List.getElem?_append_right (Nat.le_refl _), Nat.sub_self,
      List.getElem?_cons_zero, ← hspec]

end Reading

end ImportStatement

/-- A statement ends with its specifier, a brace or a semicolon. -/
theorem ImportStatement.exists_getLast?_kinds (s : ImportStatement) :
    ∃ k, s.kinds.getLast? = some k ∧ k.isWord = false ∧ k ≠ .punct '.' := by
  rw [kinds, List.getLast?_append, List.getLast?_cons, endKinds, List.getLast?_append]
  cases s.semicolon with
  | true => exact ⟨.punct ';', by simp, rfl, by simp⟩
  | false =>
      cases s.attributes with
      | none => exact ⟨.str s.source, by simp, rfl, by simp⟩
      | some a =>
          refine ⟨.punct '}', ?_, rfl, by simp⟩
          simp [AttributeClause.kinds, List.getLast?_cons]

/-- A statement as it is laid out. -/
structure PrintedImport where
  statement : ImportStatement
  layout : List Spaced
  kinds : layout.map Spaced.kind = statement.kinds
  apart : layout.IsChain Spaced.Apart

namespace PrintedImport

/-- The text of statements one behind the other. The line break behind a statement is white space
in front of the next one, or a part of `last`. -/
def text (ps : List PrintedImport) (last : List Separator) : String :=
  String.ofList (layoutText (ps.flatMap layout) ++ gapText last)

/-- The declarations are what is read of the statements, laid out one behind the other from `pos`
on. -/
inductive ReadAs : Nat → List PrintedImport → List ImportDeclaration → Prop
  | nil (pos : Nat) : ReadAs pos [] []
  | cons {pos : Nat} {p : PrintedImport} {ps : List PrintedImport} {d : ImportDeclaration}
      {ds : List ImportDeclaration} (head : p.statement.IsReadAs (layoutTokens pos p.layout) d)
      (tail : ReadAs (pos + byteLength (layoutText p.layout)) ps ds) :
      ReadAs pos (p :: ps) (d :: ds)

theorem map_kind_tokens (p : PrintedImport) (pos : Nat) :
    (layoutTokens pos p.layout).map Token.kind = p.statement.kinds := by
  rw [map_kind_layoutTokens, p.kinds]

/-- No statement runs into the next one. -/
theorem isChain_layouts (ps : List PrintedImport) :
    (ps.flatMap layout).IsChain Spaced.Apart := by
  induction ps with
  | nil => exact .nil
  | cons p ps ih =>
      rw [List.flatMap_cons]
      refine p.apart.append ih fun s hs r _ hword => ?_
      obtain ⟨k, hk, hother, -⟩ := p.statement.exists_getLast?_kinds
      rw [← p.kinds, List.getLast?_map, Option.mem_def.mp hs] at hk
      cases hk
      rw [hother] at hword
      cases hword

theorem nextOrEnd_layouts (pos : Nat) (ps : List PrintedImport) :
    ImportStatement.NextOrEnd (layoutTokens pos (ps.flatMap layout)) := by
  cases ps with
  | nil => exact nofun
  | cons p ps =>
      intro t ht
      have hkinds := p.map_kind_tokens pos
      rw [List.flatMap_cons, layoutTokens_append] at ht
      obtain ⟨u, us, hus, hu, -⟩ := List.map_eq_cons_iff.mp hkinds
      rw [hus] at ht
      cases ht
      exact hu

theorem importNodesFrom_layouts (ps : List PrintedImport) {before : List Token}
    (hbefore : before.head?.any (·.isPunct '.') = false) (pos : Nat) :
    ∃ ds, importNodesFrom before (layoutTokens pos (ps.flatMap layout)) =
        ds.map .declaration ∧ ReadAs pos ps ds := by
  induction ps generalizing before pos with
  | nil => exact ⟨[], rfl, .nil pos⟩
  | cons p ps ih =>
      rw [List.flatMap_cons, layoutTokens_append]
      obtain ⟨d, hnodes, hread⟩ := ImportStatement.importNodesFrom_append (p.map_kind_tokens pos)
        hbefore (nextOrEnd_layouts _ ps)
      have hlast : ((layoutTokens pos p.layout).reverse ++ before).head?.any (·.isPunct '.') =
          false := by
        obtain ⟨k, hk, -, hdot⟩ := p.statement.exists_getLast?_kinds
        rw [← p.map_kind_tokens pos, List.getLast?_map] at hk
        obtain ⟨z, hz, rfl⟩ := Option.map_eq_some_iff.mp hk
        simp [List.head?_append, List.head?_reverse, hz, Token.isPunct, hdot]
      obtain ⟨ds, hrest, hreads⟩ := ih hlast (pos + byteLength (layoutText p.layout))
      exact ⟨d :: ds, by rw [hnodes, hrest, List.map_cons], .cons hread hreads⟩

end PrintedImport

/-- Import declarations that are printed one behind the other are read back: as one declaration
each, in order and with what was printed. -/
theorem importNodes_printed (ps : List PrintedImport) (last : List Separator) :
    ∃ ds, importNodes (PrintedImport.text ps last) = ds.map .declaration ∧
      PrintedImport.ReadAs 0 ps ds := by
  rw [importNodes, PrintedImport.text, tokenize_layout (PrintedImport.isChain_layouts ps) last]
  exact PrintedImport.importNodesFrom_layouts ps rfl 0

/-- A statement whose names are words of a clause, and one with no white space in it. -/
def printedSample : List PrintedImport :=
  let space : Separator := .blank ' ' rfl
  [{ statement :=
      { clause := some (.listed none [.renamed "import" "from", .renamed "default" "a"] false)
        source := "./x.js"
        attributes := none
        semicolon := false
        unambiguous := by
          rintro c ⟨⟩
          exact ⟨by decide, by decide, by decide⟩ }
     layout :=
      [.word [] "import" (by decide), .sign [space] '\x7b' rfl, .word [space] "import" (by decide),
        .word [space] "as" (by decide), .word [space] "from" (by decide), .sign [] ',' rfl,
        .word [space] "default" (by decide), .word [space] "as" (by decide),
        .word [space] "a" (by decide), .sign [space] '\x7d' rfl, .word [space] "from" (by decide),
        ⟨[space], .str "./x.js", _, .string (.inr rfl) (by decide)⟩]
     kinds := rfl
     apart := by decide },
   { statement :=
      { clause := none
        source := "./y.js"
        attributes := some ⟨.withClause, [⟨.word "import", "css"⟩], false⟩
        semicolon := true
        unambiguous := nofun }
     layout :=
      [.word [.blank '\n' rfl] "import" (by decide),
        ⟨[], .str "./y.js", _, .string (.inl rfl) (by decide)⟩, .word [] "with" (by decide),
        .sign [] '\x7b' rfl, .word [] "import" (by decide), .sign [] ':' rfl,
        ⟨[], .str "css", _, .string (.inr rfl) (by decide)⟩, .sign [] '\x7d' rfl, .sign [] ';' rfl]
     kinds := rfl
     apart := by decide }]

theorem importNodes_printed_sample :
    let last : List Separator := [.blank ' ' rfl, .line [' ', 'o', 'k'] (by decide)]
    PrintedImport.text printedSample last =
        "import \x7b import as from, default as a \x7d from \"./x.js\"\n" ++
          "import'./y.js'with\x7bimport:\"css\"\x7d; // ok\n" ∧
      ∃ ds, importNodes (PrintedImport.text printedSample last) = ds.map .declaration ∧
        PrintedImport.ReadAs 0 printedSample ds :=
  ⟨by decide +kernel, importNodes_printed _ _⟩

end StyleBundler.Script
