import StyleBundler.Proofs.Script.Redirection

/-!
The grammar of import clauses, and what is read of them. A clause binds a default name, a namespace
or a list of names, of which any number can be names of the default export. The walk over its tokens
finds the namespace, and one name of the default export: the default name, unless that is `from` and
a comma follows, and else the first item that renames `default` (`readClause?_of_kinds`).
-/

namespace StyleBundler.Script

/-- An item in the braces of an import clause. -/
inductive ImportItem where
  | named (name : String)
  | renamed (imported localName : String)
  /-- The imported name is a string. -/
  | quoted (imported localName : String)
deriving DecidableEq, Repr

namespace ImportItem

def kinds : ImportItem → List TokenKind
  | named name => [.ident name]
  | renamed imported localName => [.ident imported, .ident "as", .ident localName]
  | quoted imported localName => [.str imported, .ident "as", .ident localName]

/-- The tokens of items with a comma between any two. -/
def listKinds : List ImportItem → List TokenKind
  | [] => []
  | [item] => item.kinds
  | item :: next :: items => item.kinds ++ .punct ',' :: listKinds (next :: items)

/-- The name that the item gives to the default export, which has none of its own. -/
def defaultName? : ImportItem → Option String
  | named _ => none
  | renamed imported localName | quoted imported localName =>
      if imported = "default" then some localName else none

/-- The name of the default export that is read of the item. -/
def keptName? : ImportItem → Option String
  | renamed imported localName => if imported = "default" then some localName else none
  | named _ | quoted _ _ => none

/-- The item spells `default` as a string. -/
def quotesDefault : ImportItem → Bool
  | quoted imported _ => imported == "default"
  | named _ | renamed _ _ => false

theorem keptName?_eq {item : ImportItem} (h : item.quotesDefault = false) :
    item.keptName? = item.defaultName? := by
  cases item with
  | named | renamed => rfl
  | quoted imported localName =>
      rw [defaultName?, if_neg (beq_eq_false_iff_ne.mp h)]
      rfl

end ImportItem

/-- What stands between `import` and `from`. -/
inductive ImportClause where
  | plain (name : String)
  | whole (defaultName : Option String) (name : String)
  | listed (defaultName : Option String) (items : List ImportItem) (trailingComma : Bool)
deriving DecidableEq, Repr

namespace ImportClause

/-- A default name in front of another part, with its comma. -/
def leadKinds : Option String → List TokenKind
  | none => []
  | some name => [.ident name, .punct ',']

def kinds : ImportClause → List TokenKind
  | plain name => [.ident name]
  | whole defaultName name =>
      leadKinds defaultName ++ [.punct '*', .ident "as", .ident name]
  | listed defaultName items trailingComma =>
      leadKinds defaultName ++ .punct '{' :: (ImportItem.listKinds items ++
        ((if trailingComma then [.punct ','] else []) ++ [.punct '}']))

/-- The local names of the default export. -/
def defaultNames : ImportClause → List String
  | plain name => [name]
  | whole defaultName _ => defaultName.toList
  | listed defaultName items _ => defaultName.toList ++ items.filterMap ImportItem.defaultName?

/-- The local name of the namespace. -/
def wholeName? : ImportClause → Option String
  | whole _ name => some name
  | plain _ | listed .. => none

/-- The name of the default export that is read of the clause. -/
def keptName? : ImportClause → Option String
  | plain name => some name
  | whole defaultName _ => defaultName.filter (· != "from")
  | listed defaultName items _ =>
      (defaultName.filter (· != "from")).or (items.findSome? ImportItem.keptName?)

/-- At most one name is given to the default export, not by a string, and it is not `from` in front
of a comma. -/
def IsPlain : ImportClause → Prop
  | plain _ => True
  | whole defaultName _ => defaultName ≠ some "from"
  | listed defaultName items trailingComma =>
      defaultName ≠ some "from" ∧ (∀ item ∈ items, item.quotesDefault = false) ∧
        (listed defaultName items trailingComma).defaultNames.length ≤ 1

instance (c : ImportClause) : Decidable c.IsPlain :=
  match c with
  | plain _ => inferInstanceAs (Decidable True)
  | whole _ _ => inferInstanceAs (Decidable (_ ≠ _))
  | listed .. => inferInstanceAs (Decidable (_ ∧ _ ∧ _))

theorem eq_toList_head? {α : Type} {l : List α} (h : l.length ≤ 1) : l = l.head?.toList := by
  match l with
  | [] | [_] => rfl

theorem filter_ne_from {defaultName : Option String} (h : defaultName ≠ some "from") :
    defaultName.filter (· != "from") = defaultName := by
  cases defaultName with
  | none => rfl
  | some name =>
      have hname : name ≠ "from" := fun heq => h (congrArg some heq)
      simp [Option.filter, hname]

/-- Of a list that does not spell `default` as a string the first name is read. -/
theorem keptName?_listed {defaultName : Option String} {items : List ImportItem}
    (hfrom : defaultName ≠ some "from") (hquoted : ∀ item ∈ items, item.quotesDefault = false)
    (trailingComma : Bool) :
    (listed defaultName items trailingComma).keptName? =
      (listed defaultName items trailingComma).defaultNames.head? := by
  have hkept : items.filterMap ImportItem.keptName? =
      items.filterMap ImportItem.defaultName? :=
    List.filterMap_congr fun item hitem => ImportItem.keptName?_eq (hquoted item hitem)
  rw [keptName?, filter_ne_from hfrom, ← List.head?_filterMap, hkept, defaultNames,
    List.head?_append, Option.head?_toList]

/-- No name of the default export is lost of a plain clause. -/
theorem IsPlain.defaultNames_eq {c : ImportClause} (h : c.IsPlain) :
    c.defaultNames = c.keptName?.toList := by
  cases c with
  | plain name => rfl
  | whole defaultName name => rw [keptName?, filter_ne_from h, defaultNames]
  | listed defaultName items trailingComma =>
      obtain ⟨hfrom, hquoted, hone⟩ := h
      rw [keptName?_listed hfrom hquoted]
      exact eq_toList_head? hone

end ImportClause

theorem clause?_open {t : Token} (h : t.kind = .punct '\x7b') (first : Bool) (depth : Nat)
    (found : ClauseBindings) (ts : List Token) :
    clause? first depth found (t :: ts) = clause? false (depth + 1) found ts := by
  simp [clause?, h]

theorem clause?_close {t : Token} (h : t.kind = .punct '\x7d') (first : Bool) (depth : Nat)
    (found : ClauseBindings) (ts : List Token) :
    clause? first (depth + 1) found (t :: ts) = clause? false depth found ts := by
  simp [clause?, h]

/-- The signs that mean nothing to a clause. -/
def isClauseSign (c : Char) : Bool := c != '\x7b' && c != '\x7d' && c != ';' && c != '*'

theorem clause?_sign {t : Token} {c : Char} (h : t.kind = .punct c) (hc : isClauseSign c = true)
    (first : Bool) (depth : Nat) (found : ClauseBindings) (ts : List Token) :
    clause? first depth found (t :: ts) = clause? false depth found ts := by
  simp only [isClauseSign, Bool.and_eq_true, bne_iff_ne] at hc
  obtain ⟨⟨⟨hopen, hclose⟩, hend⟩, hstar⟩ := hc
  simp [clause?, h, hopen, hclose, hend, hstar]

section Reading

variable {t : Token} {ts rest : List Token} {found : ClauseBindings}

theorem exists_three {a b c : TokenKind} (h : ts.map Token.kind = [a, b, c]) :
    ∃ t u v, ts = [t, u, v] ∧ t.kind = a ∧ u.kind = b ∧ v.kind = c := by
  obtain ⟨t, ts, rfl, ht, h⟩ := List.map_eq_cons_iff.mp h
  obtain ⟨u, ts, rfl, hu, h⟩ := List.map_eq_cons_iff.mp h
  obtain ⟨v, ts, rfl, hv, hnil⟩ := List.map_eq_cons_iff.mp h
  obtain rfl := List.map_eq_nil_iff.mp hnil
  exact ⟨t, u, v, rfl, ht, hu, hv⟩

theorem alias?_of_punct {c : Char} (ht : t.kind = .punct c) : alias? (t :: rest) = none := by
  cases rest with
  | nil => rfl
  | cons => simp [alias?, Token.isIdent, ht]

/-- In braces only what stands behind `default` counts. -/
theorem clause?_braced {name : String} (ht : t.kind = .ident name) :
    clause? false 1 found (t :: rest) = clause? false 1
      ⟨found.defaultName.or (if name = "default" then alias? rest else none),
        found.namespaceName⟩ rest := by
  by_cases hname : name = "default" <;> simp [clause?, ht, hname]

theorem clause?_string {value : String} (ht : t.kind = .str value) (first : Bool) (depth : Nat) :
    clause? first depth found (t :: rest) = clause? false depth found rest := by
  simp [clause?, ht]

/-- Behind an item stands a comma or a brace. -/
def BehindItem (rest : List Token) : Prop :=
  ∃ t more, rest = t :: more ∧ (t.kind = .punct ',' ∨ t.kind = .punct '}')

theorem BehindItem.alias?_eq (h : BehindItem rest) : alias? rest = none := by
  obtain ⟨t, more, rfl, ht | ht⟩ := h <;> exact alias?_of_punct ht

theorem clause?_item {item : ImportItem} (hts : ts.map Token.kind = item.kinds)
    (hrest : BehindItem rest) :
    clause? false 1 found (ts ++ rest) =
      clause? false 1 ⟨found.defaultName.or item.keptName?, found.namespaceName⟩ rest := by
  have hend := hrest.alias?_eq
  cases item with
  | named name =>
      obtain ⟨t, ts, rfl, ht, hnil⟩ := List.map_eq_cons_iff.mp hts
      obtain rfl := List.map_eq_nil_iff.mp hnil
      rw [List.singleton_append, clause?_braced ht, hend]
      simp [ImportItem.keptName?]
  | renamed imported localName =>
      obtain ⟨t, keyword, name, rfl, ht, hkeyword, hname⟩ := exists_three hts
      have halias : alias? (keyword :: name :: rest) = some localName := by
        simp [alias?, Token.isIdent, hkeyword, hname]
      simp only [List.cons_append, List.nil_append, clause?_braced ht, clause?_braced hkeyword,
        clause?_braced hname, halias, hend, ImportItem.keptName?]
      simp
  | quoted imported localName =>
      obtain ⟨t, keyword, name, rfl, ht, hkeyword, hname⟩ := exists_three hts
      simp only [List.cons_append, List.nil_append, clause?_string ht, clause?_braced hkeyword,
        clause?_braced hname, hend, ImportItem.keptName?]
      simp

theorem clause?_items {items : List ImportItem}
    (hts : ts.map Token.kind = ImportItem.listKinds items) (hrest : BehindItem rest) :
    clause? false 1 found (ts ++ rest) =
      clause? false 1 ⟨found.defaultName.or (items.findSome? ImportItem.keptName?),
        found.namespaceName⟩ rest := by
  fun_induction ImportItem.listKinds items generalizing ts found with
  | case1 =>
      obtain rfl := List.map_eq_nil_iff.mp hts
      simp
  | case2 item =>
      rw [clause?_item hts hrest]
      cases h : item.keptName? <;> simp [h]
  | case3 item next items ih =>
      obtain ⟨front, back, rfl, hfront, hback⟩ := List.map_eq_append_iff.mp hts
      obtain ⟨comma, back, rfl, hcomma, hback⟩ := List.map_eq_cons_iff.mp hback
      have hbehind : BehindItem (comma :: back ++ rest) := ⟨comma, back ++ rest, rfl, .inl hcomma⟩
      rw [List.append_assoc, clause?_item hfront hbehind, List.cons_append,
        clause?_sign hcomma (by decide), ih hback, List.findSome?_cons (a := item), Option.or_assoc]
      cases item.keptName? <;> rfl

variable {keyword spec : Token} {source : String}

/-- Outside of braces a word is passed over, unless it is the `from` of the clause. -/
theorem clause?_outer {first : Bool} {name : String} (ht : t.kind = .ident name)
    (h : name = "from" → first = true ∨ leadingString? rest = none) :
    clause? first 0 found (t :: rest) = clause? false 0 found rest := by
  by_cases hname : name = "from"
  · obtain rfl | hnone := h hname
    · simp [clause?, ht]
    · cases first <;> simp [clause?, ht, hnone]
  · simp [clause?, ht, hname]

theorem clause?_from (hkeyword : keyword.kind = .ident "from") (hspec : spec.kind = .str source) :
    clause? false 0 found (keyword :: spec :: rest) = some (found, source, spec.span, rest) := by
  simp [clause?, hkeyword, leadingString?, hspec]

theorem clause?_whole {name : String}
    (hts : ts.map Token.kind = [.punct '*', .ident "as", .ident name])
    (hkeyword : keyword.kind = .ident "from") (hspec : spec.kind = .str source) (first : Bool) :
    clause? first 0 found (ts ++ keyword :: spec :: rest) =
      some (⟨found.defaultName, some name⟩, source, spec.span, rest) := by
  obtain ⟨star, word, whole, rfl, hstar, hword, hwhole⟩ := exists_three hts
  -- The namespace may be called `from` as well: what follows it then is no string.
  have hlast : leadingString? (keyword :: spec :: rest) = none := by simp [leadingString?, hkeyword]
  have halias : alias? (word :: whole :: keyword :: spec :: rest) = some name := by
    simp [alias?, Token.isIdent, hword, hwhole]
  have hstep : clause? first 0 found (star :: word :: whole :: keyword :: spec :: rest) =
      clause? false 0 ⟨found.defaultName, some name⟩ (word :: whole :: keyword :: spec :: rest) := by
    simp [clause?, hstar, halias]
  simp only [List.cons_append, List.nil_append, hstep]
  rw [clause?_outer hword (by simp), clause?_outer hwhole fun _ => .inr hlast,
    clause?_from hkeyword hspec]

theorem clause?_listed {items : List ImportItem} {trailingComma : Bool}
    (hts : ts.map Token.kind = .punct '{' :: (ImportItem.listKinds items ++
      ((if trailingComma then [.punct ','] else []) ++ [.punct '}'])))
    (hkeyword : keyword.kind = .ident "from") (hspec : spec.kind = .str source) (first : Bool) :
    clause? first 0 found (ts ++ keyword :: spec :: rest) =
      some (⟨found.defaultName.or (items.findSome? ImportItem.keptName?), found.namespaceName⟩,
        source, spec.span, rest) := by
  obtain ⟨opening, ts, rfl, hopening, hts⟩ := List.map_eq_cons_iff.mp hts
  obtain ⟨listed, ts, rfl, hlisted, hts⟩ := List.map_eq_append_iff.mp hts
  rw [List.cons_append, clause?_open hopening, List.append_assoc]
  cases trailingComma with
  | false =>
      obtain ⟨closing, ts, rfl, hclosing, hnil⟩ := List.map_eq_cons_iff.mp hts
      obtain rfl := List.map_eq_nil_iff.mp hnil
      rw [List.singleton_append, clause?_items hlisted ⟨closing, _, rfl, .inr hclosing⟩,
        clause?_close hclosing, clause?_from hkeyword hspec]
  | true =>
      obtain ⟨comma, ts, rfl, hcomma, hts⟩ := List.map_eq_cons_iff.mp hts
      obtain ⟨closing, ts, rfl, hclosing, hnil⟩ := List.map_eq_cons_iff.mp hts
      obtain rfl := List.map_eq_nil_iff.mp hnil
      rw [List.cons_append, List.singleton_append,
        clause?_items hlisted ⟨comma, _, rfl, .inl hcomma⟩, clause?_sign hcomma (by decide),
        clause?_close hclosing, clause?_from hkeyword hspec]

/-- A default name is read in front of the rest of a clause, but for a `from`. -/
theorem readClause?_lead {defaultName : Option String} {c : Char}
    (hts : ts.map Token.kind = ImportClause.leadKinds defaultName) (ht : t.kind = .punct c) :
    readClause? (ts ++ t :: rest) =
      clause? defaultName.isNone 0 ⟨defaultName.filter (· != "from"), none⟩ (t :: rest) := by
  cases defaultName with
  | none =>
      obtain rfl := List.map_eq_nil_iff.mp hts
      simp [readClause?, leadingString?, leadingDefault?, ht]
  | some name =>
      obtain ⟨first, ts, rfl, hfirst, hts⟩ := List.map_eq_cons_iff.mp hts
      obtain ⟨comma, ts, rfl, hcomma, hnil⟩ := List.map_eq_cons_iff.mp hts
      obtain rfl := List.map_eq_nil_iff.mp hnil
      have hdefault : leadingDefault? (first :: comma :: t :: rest) =
          (some name).filter (· != "from") := by
        simp [leadingDefault?, hfirst, Token.isIdent, hcomma, Option.filter]
      simp only [List.cons_append, List.nil_append, readClause?, leadingString?, hfirst, hdefault]
      rw [clause?_outer hfirst fun _ => .inl rfl, clause?_sign hcomma (by decide)]
      rfl

/-- What is read of a clause in front of its specifier: one name of the default export, and the
namespace. -/
theorem readClause?_of_kinds {c : ImportClause} (hts : ts.map Token.kind = c.kinds)
    (hkeyword : keyword.kind = .ident "from") (hspec : spec.kind = .str source) :
    readClause? (ts ++ keyword :: spec :: rest) =
      some (⟨c.keptName?, c.wholeName?⟩, source, spec.span, rest) := by
  cases c with
  | plain name =>
      obtain ⟨t, ts, rfl, ht, hnil⟩ := List.map_eq_cons_iff.mp hts
      obtain rfl := List.map_eq_nil_iff.mp hnil
      have hdefault : leadingDefault? (t :: keyword :: spec :: rest) = some name := by
        simp [leadingDefault?, ht, Token.isIdent, hkeyword]
      simp only [List.cons_append, List.nil_append, readClause?, leadingString?, ht, hdefault]
      rw [clause?_outer ht fun _ => .inl rfl, clause?_from hkeyword hspec]
      rfl
  | whole defaultName name =>
      obtain ⟨lead, part, rfl, hlead, hpart⟩ := List.map_eq_append_iff.mp hts
      obtain ⟨star, part, rfl, hstar, -⟩ := List.map_eq_cons_iff.mp hpart
      rw [List.append_assoc, List.cons_append, readClause?_lead hlead hstar]
      exact clause?_whole hpart hkeyword hspec _
  | listed defaultName items trailingComma =>
      obtain ⟨lead, part, rfl, hlead, hpart⟩ := List.map_eq_append_iff.mp hts
      obtain ⟨opening, part, rfl, hopening, -⟩ := List.map_eq_cons_iff.mp hpart
      rw [List.append_assoc, List.cons_append, readClause?_lead hlead hopening]
      exact clause?_listed hpart hkeyword hspec _

/-- No clause goes on as a call or as the meta property does. -/
theorem ImportClause.exists_kinds (c : ImportClause) :
    ∃ k ks, c.kinds = k :: ks ∧ k ≠ .punct '(' ∧ k ≠ .punct '.' := by
  rcases c with name | ⟨_ | name, whole⟩ | ⟨_ | name, items, trailingComma⟩ <;>
    exact ⟨_, _, rfl, by simp, by simp⟩

theorem ImportClause.isPunct_head? {c : ImportClause} (hts : ts.map Token.kind = c.kinds) :
    (ts ++ rest).head?.any (·.isPunct '(') = false := by
  obtain ⟨k, ks, hkinds, hk, -⟩ := c.exists_kinds
  obtain ⟨t, ts, rfl, ht, -⟩ := List.map_eq_cons_iff.mp (hts.trans hkinds)
  simp [Token.isPunct, ht, hk]

/-- Where a clause can be read, and no call, the node is a declaration with what is read. -/
theorem exists_declaration_of_importNodeAt? {before : List Token} {n : ImportNode}
    {bound : ClauseBindings} {span : Span} (h : importNodeAt? before t ts = some n)
    (hcall : ts.head?.any (·.isPunct '(') = false)
    (hread : readClause? ts = some (bound, source, span, rest)) :
    ∃ d, n = .declaration d ∧ d.defaultBinding = bound.defaultName ∧
      d.namespaceBinding = bound.namespaceName := by
  obtain ⟨-, -, ⟨paren, left, c, rfl, hparen, -, -⟩ | ⟨d, -, hd, rfl⟩⟩ := importNodeAt?_cases h
  · simp [Token.isPunct, hparen] at hcall
  · obtain ⟨bound', rest', left, hclause, -, hdefault, hwhole, -⟩ :=
      exists_readClause?_of_declaration? hd
    cases hread.symm.trans hclause
    exact ⟨d, rfl, hdefault, hwhole⟩

end Reading

end StyleBundler.Script
