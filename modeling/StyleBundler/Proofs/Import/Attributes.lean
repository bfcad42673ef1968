import StyleBundler.Proofs.Import.Clause

/-!
The grammar of attribute clauses, and what is read of them: each key with its string
(`exists_attributes?_of_kinds`).
-/

namespace StyleBundler.Script

/-- The key of an attribute. -/
inductive AttributeKey where
  | word (name : String)
  | quoted (name : String)
deriving DecidableEq, Repr

namespace AttributeKey

def kind : AttributeKey → TokenKind
  | word name => .ident name
  | quoted name => .str name

def name : AttributeKey → String
  | word name | quoted name => name

end AttributeKey

structure AttributeEntry where
  key : AttributeKey
  value : String
deriving DecidableEq, Repr

namespace AttributeEntry

def kinds (e : AttributeEntry) : List TokenKind := [e.key.kind, .punct ':', .str e.value]

/-- The tokens of entries with a comma between any two, and perhaps one behind the last. -/
def listKinds (trailingComma : Bool) : List AttributeEntry → List TokenKind
  | [] => []
  | [e] => e.kinds ++ if trailingComma then [.punct ','] else []
  | e :: next :: es => e.kinds ++ .punct ',' :: listKinds trailingComma (next :: es)

end AttributeEntry

/-- What stands behind a specifier. -/
structure AttributeClause where
  keyword : AttributeKeyword
  entries : List AttributeEntry
  trailingComma : Bool
deriving DecidableEq, Repr

namespace AttributeClause

def kinds (a : AttributeClause) : List TokenKind :=
  .ident a.keyword.text :: .punct '{' ::
    (AttributeEntry.listKinds a.trailingComma a.entries ++ [.punct '}'])

/-- The keyword, and each key with its string. -/
def texts (a : AttributeClause) : AttributeKeyword × List (String × Option String) :=
  (a.keyword, a.entries.map fun e => (e.key.name, some e.value))

end AttributeClause

@[inherit_doc AttributeClause.texts]
def Attributes.texts (a : Attributes) : AttributeKeyword × List (String × Option String) :=
  (a.keyword, a.entries.properties.map fun (key, value) => (key, value.asString?))

theorem AttributeKeyword.ofText?_text (keyword : AttributeKeyword) :
    ofText? keyword.text = some keyword := by
  cases keyword <;> rfl

section Reading

variable {key colon value close : Token} {ts rest : List Token} {e : AttributeEntry}

theorem readExpr?_string {s : String} (hvalue : value.kind = .str s)
    (hrest : endsOperand rest = true) :
    readExpr? (value :: rest) = some (.str value.span s, rest) := by
  have hoperand : Operand.read 0 (value :: rest) = ⟨[value], false, rest⟩ := by
    rw [Operand.read_cons_of_ne_punct (by simp [hvalue]), Operand.read_of_endsOperand hrest]
    rfl
  rw [readExpr?_cons, if_neg (by simp [Token.isPunct, hvalue]), readPlain?_eq, hoperand]
  simp [Operand.toExpr?, hvalue]

/-- An entry is read in front of a comma or of the brace that closes the clause. -/
theorem readProperties?_entry (hkey : key.kind = e.key.kind) (hcolon : colon.kind = .punct ':')
    (hvalue : value.kind = .str e.value) {more : List Token} (hmore : endsOperand more = true)
    (hrest : skipComma? more = some rest) :
    readProperties? (key :: colon :: value :: more) =
      (readProperties? rest).map fun (found, stop, left) =>
        ((e.key.name, .str value.span e.value) :: found, stop, left) := by
  have hentry : entryOperand key (colon :: value :: more) = (some e.key.name, value :: more) := by
    have hname : propertyKey? key = some e.key.name := by
      rw [propertyKey?, hkey]
      cases e.key <;> rfl
    simp [entryOperand, hname, hcolon, Token.isPunct]
  have hbrace : key.isPunct '\x7d' = false := by
    rw [Token.isPunct, hkey]
    cases e.key <;> rfl
  rw [readProperties?_cons, hbrace, hentry]
  simp [readExpr?_string hvalue hmore, hrest]

theorem readProperties?_close (hclose : close.kind = .punct '\x7d') :
    readProperties? (close :: rest) = some ([], close.span.stop, rest) := by
  rw [readProperties?_cons, if_pos (by simp [Token.isPunct, hclose])]

/-- The tokens are read as the entries, each key with its string. -/
def ReadsEntries (ts : List Token) (es : List AttributeEntry) (stop : Nat)
    (rest : List Token) : Prop :=
  ∃ found, readProperties? ts = some (found, stop, rest) ∧
    (found.map fun (key, value) => (key, value.asString?)) =
      es.map fun e => (e.key.name, some e.value)

theorem ReadsEntries.nil (hclose : close.kind = .punct '\x7d') :
    ReadsEntries (close :: rest) [] close.span.stop rest :=
  ⟨[], readProperties?_close hclose, rfl⟩

theorem ReadsEntries.cons {entry more left : List Token} {es : List AttributeEntry} {stop : Nat}
    (hentry : entry.map Token.kind = e.kinds) (hmore : endsOperand more = true)
    (hskip : skipComma? more = some left) (h : ReadsEntries left es stop rest) :
    ReadsEntries (entry ++ more) (e :: es) stop rest := by
  obtain ⟨key, colon, value, rfl, hkey, hcolon, hvalue⟩ := exists_three hentry
  obtain ⟨found, hread, htexts⟩ := h
  refine ⟨(e.key.name, .str value.span e.value) :: found, ?_, ?_⟩
  · simp only [List.cons_append, List.nil_append]
    rw [readProperties?_entry hkey hcolon hvalue hmore hskip, hread]
    rfl
  · rw [List.map_cons, List.map_cons, htexts]
    rfl

theorem readsEntries_of_kinds {trailingComma : Bool} {es : List AttributeEntry}
    (hts : ts.map Token.kind = AttributeEntry.listKinds trailingComma es)
    (hclose : close.kind = .punct '\x7d') (rest : List Token) :
    ReadsEntries (ts ++ close :: rest) es close.span.stop rest := by
  have hcomma : ∀ {comma : Token} (more : List Token), comma.kind = .punct ',' →
      endsOperand (comma :: more) = true ∧ skipComma? (comma :: more) = some more := by
    intro comma more hkind
    simp [endsOperand, skipComma?, Token.isPunct, hkind]
  fun_induction AttributeEntry.listKinds trailingComma es generalizing ts with
  | case1 =>
      obtain rfl := List.map_eq_nil_iff.mp hts
      exact .nil hclose
  | case2 e =>
      obtain ⟨entry, back, rfl, hentry, hback⟩ := List.map_eq_append_iff.mp hts
      rw [List.append_assoc]
      split at hback
      · obtain ⟨comma, back, rfl, hkind, hnil⟩ := List.map_eq_cons_iff.mp hback
        obtain rfl := List.map_eq_nil_iff.mp hnil
        obtain ⟨hends, hskip⟩ := hcomma (close :: rest) hkind
        exact .cons hentry hends hskip (.nil hclose)
      · obtain rfl := List.map_eq_nil_iff.mp hback
        have hends : endsOperand (close :: rest) = true := by
          simp [endsOperand, Token.isPunct, hclose]
        have hskip : skipComma? (close :: rest) = some (close :: rest) := by
          simp [skipComma?, Token.isPunct, hclose]
        exact .cons hentry hends hskip (.nil hclose)
  | case3 e next es ih =>
      obtain ⟨entry, back, rfl, hentry, hback⟩ := List.map_eq_append_iff.mp hts
      obtain ⟨comma, back, rfl, hkind, hback⟩ := List.map_eq_cons_iff.mp hback
      obtain ⟨hends, hskip⟩ := hcomma (back ++ close :: rest) hkind
      rw [List.append_assoc]
      exact .cons hentry hends hskip (ih hback)

/-- A clause is read with its keyword, up to the brace that closes it. -/
theorem exists_attributes?_of_kinds {a : AttributeClause} (hts : ts.map Token.kind = a.kinds)
    (rest : List Token) :
    ∃ found z, attributes? (ts ++ rest) = some (some found, rest) ∧ ts.getLast? = some z ∧
      found.entries.span.stop = z.span.stop ∧ found.texts = a.texts := by
  obtain ⟨word, ts, rfl, hword, hts⟩ := List.map_eq_cons_iff.mp hts
  obtain ⟨brace, ts, rfl, hbrace, hts⟩ := List.map_eq_cons_iff.mp hts
  obtain ⟨listed, ts, rfl, hlisted, hts⟩ := List.map_eq_append_iff.mp hts
  obtain ⟨close, ts, rfl, hclose, hnil⟩ := List.map_eq_cons_iff.mp hts
  obtain rfl := List.map_eq_nil_iff.mp hnil
  obtain ⟨found, hread, htexts⟩ := readsEntries_of_kinds hlisted hclose rest
  refine ⟨⟨a.keyword, ⟨⟨brace.span.start, close.span.stop⟩, found⟩⟩, close, ?_, ?_, rfl,
    congrArg (a.keyword, ·) htexts⟩
  · rw [List.cons_append, List.cons_append, List.append_assoc, List.singleton_append,
      attributes?_cons_cons, hword]
    simp only [a.keyword.ofText?_text, Token.isPunct, hbrace, hread]
    rfl
  · rw [← List.cons_append, ← List.cons_append, List.getLast?_concat]

/-- Without an attribute keyword there are no attributes. -/
theorem attributes?_eq_none
    (h : ∀ t name, ts.head? = some t → t.kind = .ident name →
      AttributeKeyword.ofText? name = none) : attributes? ts = some (none, ts) := by
  match ts with
  | [] | [_] => rfl
  | t :: brace :: rest =>
      rw [attributes?_cons_cons]
      split
      · next name hkind =>
          rw [h t name rfl hkind]
      · rfl

end Reading

end StyleBundler.Script
