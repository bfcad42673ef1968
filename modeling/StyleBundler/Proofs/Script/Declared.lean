import StyleBundler.Proofs.Script.Piece
import StyleBundler.Proofs.Script.Placing

/-!
The names that a script declares at its top level. A script is cut into statements behind the
semicolons outside of brackets; whole statements one behind the other are cut into themselves
(`statements_flatten`), so a text put together from statements declares what these do.
-/

namespace StyleBundler.Script

open Lexer

namespace TokenKind

/-- How deep in brackets the tokens behind this one are. -/
def depthBehind (depth : Nat) : TokenKind → Nat
  | .punct c =>
      if c = '{' ∨ c = '(' ∨ c = '[' then depth + 1
      else if c = '}' ∨ c = ')' ∨ c = ']' then depth - 1
      else depth
  | _ => depth

/-- A semicolon outside of brackets ends a statement. -/
def endsStatement (depth : Nat) (k : TokenKind) : Bool := depth == 0 && k == .punct ';'

/-- Neither a bracket nor a semicolon. -/
def isInner : TokenKind → Bool
  | .punct c => !(['{', '}', '(', ')', '[', ']', ';'].contains c)
  | _ => true

theorem depthBehind_of_isInner {k : TokenKind} (h : k.isInner = true) (depth : Nat) :
    k.depthBehind depth = depth := by
  cases k with
  | punct c =>
      simp only [isInner, List.contains_cons, List.contains_nil, Bool.or_false, Bool.not_eq_true',
        Bool.or_eq_false_iff, beq_eq_false_iff_ne] at h
      simp [depthBehind, h]
  | ident | str | template | number | regex => rfl

theorem endsStatement_of_isInner {k : TokenKind} (h : k.isInner = true) (depth : Nat) :
    k.endsStatement depth = false := by
  have hne : k ≠ .punct ';' := by
    rintro rfl
    cases h
  simp [endsStatement, hne]

end TokenKind

/-- Cuts tokens into statements. What stands behind the last of their semicolons counts as one. -/
def statements (depth : Nat) : List TokenKind → List (List TokenKind)
  | [] => []
  | k :: ks =>
      if k.endsStatement depth then [k] :: statements 0 ks
      else
        match statements (k.depthBehind depth) ks with
        | [] => [[k]]
        | first :: more => (k :: first) :: more

/-- The tokens are one statement, with its semicolon. -/
def isStatement (depth : Nat) : List TokenKind → Bool
  | [] => false
  | k :: ks =>
      if k.endsStatement depth then ks.isEmpty else isStatement (k.depthBehind depth) ks

theorem isStatement_append_of_isInner {a : List TokenKind} (h : ∀ k ∈ a, k.isInner = true)
    (depth : Nat) (b : List TokenKind) : isStatement depth (a ++ b) = isStatement depth b := by
  induction a with
  | nil => rfl
  | cons k a ih =>
      obtain ⟨hk, ha⟩ := List.forall_mem_cons.mp h
      rw [List.cons_append, isStatement, TokenKind.endsStatement_of_isInner hk,
        TokenKind.depthBehind_of_isInner hk, if_neg Bool.false_ne_true, ih ha]

theorem statements_append {depth : Nat} {a : List TokenKind} (h : isStatement depth a = true)
    (b : List TokenKind) : statements depth (a ++ b) = a :: statements 0 b := by
  induction a generalizing depth with
  | nil => cases h
  | cons k a ih =>
      rw [isStatement] at h
      rw [List.cons_append, statements]
      split at h
      · next hends =>
          rw [if_pos hends, List.isEmpty_iff.mp h, List.nil_append]
      · next hinner => rw [if_neg hinner, ih h]

theorem statements_flatten {ss : List (List TokenKind)} (h : ∀ s ∈ ss, isStatement 0 s = true) :
    statements 0 ss.flatten = ss := by
  induction ss with
  | nil => rfl
  | cons s ss ih =>
      obtain ⟨hs, hss⟩ := List.forall_mem_cons.mp h
      rw [List.flatten_cons, statements_append hs, ih hss]

theorem flatten_statements (depth : Nat) (ks : List TokenKind) :
    (statements depth ks).flatten = ks := by
  fun_induction statements depth ks with
  | case1 => rfl
  | case2 depth k ks hends ih => rw [List.flatten_cons, ih, List.singleton_append]
  | case3 depth k ks hinner hnil ih =>
      rw [hnil] at ih
      rw [← ih]
      rfl
  | case4 depth k ks hinner first more hcons ih =>
      rw [hcons] at ih
      rw [List.flatten_cons, List.cons_append, ← List.flatten_cons, ih]

/-- The clause of an import ends here, with `from` and the specifier. -/
def endsClause : List TokenKind → Bool
  | .ident word :: .str _ :: _ => word == "from"
  | _ => false

/-- A name that these tokens follow is a local name of the clause, not one that it is made from. -/
def followsLocal (ks : List TokenKind) : Bool :=
  ks.head? == some (.punct ',') || ks.head? == some (.punct '}') || endsClause ks

/-- The local names of an import clause. -/
def clauseNames : List TokenKind → List String
  | [] => []
  | k :: ks =>
      if endsClause (k :: ks) then []
      else
        match k with
        | .ident name => if followsLocal ks then name :: clauseNames ks else clauseNames ks
        | _ => clauseNames ks

/-- The names that a statement declares. -/
def declaredBy : List TokenKind → List String
  | .ident word :: k :: ks =>
      if ["const", "let", "var", "function", "class"].contains word then
        match k with
        | .ident name => [name]
        | _ => []
      else if word = "import" ∧ k ≠ .punct '(' ∧ k ≠ .punct '.' then clauseNames (k :: ks)
      else []
  | _ => []

/-- The names that a script declares at its top level, by its `import` statements and by
declarations of one name each. -/
def declaredNames (text : String) : List String :=
  (statements 0 ((tokenize text).map Token.kind)).flatMap declaredBy

/-- The local names in braces are as they are listed. -/
theorem clauseNames_listed (names : List String) (source : String) (rest : List TokenKind) :
    clauseNames ((Piece.write (Piece.listed names)).filterMap Lexeme.kind ++
      .punct '}' :: .ident "from" :: .str source :: rest) = names := by
  fun_induction Piece.listed names with
  | case1 => simp [clauseNames, endsClause]
  | case2 name => simp [Piece.lexeme, clauseNames, endsClause, followsLocal]
  | case3 name next names ih =>
      simpa [Piece.lexeme, clauseNames, endsClause, followsLocal] using ih

theorem isInner_listed (names : List String) :
    ∀ k ∈ (Piece.write (Piece.listed names)).filterMap Lexeme.kind, k.isInner = true := by
  intro k hk
  obtain ⟨l, hl, hkind⟩ := List.mem_filterMap.mp hk
  obtain ⟨p, hp, rfl⟩ := List.mem_map.mp hl
  obtain ⟨name, -, rfl⟩ | rfl | rfl := Piece.mem_listed hp <;> cases hkind <;> rfl

/-- The text is made of whole statements, which are read as they are wherever they stand, and
declares these names. -/
def Declares (text : String) (names : List String) : Prop :=
  ∃ (ls : List Lexeme) (ss : List (List TokenKind)),
    spell ls = text.toList ∧ (∀ prior ds, Chain prior ls ds) ∧
    ls.filterMap Lexeme.kind = ss.flatten ∧ (∀ s ∈ ss, isStatement 0 s = true) ∧
    ss.flatMap declaredBy = names

namespace Declares

variable {s t : String} {ns ms : List String}

theorem empty : Declares "" [] :=
  ⟨[], [], rfl, fun _ _ => trivial, rfl, fun _ hs => absurd hs List.not_mem_nil, rfl⟩

theorem append (hs : Declares s ns) (ht : Declares t ms) : Declares (s ++ t) (ns ++ ms) := by
  obtain ⟨a, as, ha, hchain, hkinds, hall, rfl⟩ := hs
  obtain ⟨b, bs, hb, hchain', hkinds', hall', rfl⟩ := ht
  refine ⟨a ++ b, as ++ bs, by rw [spell_append, ha, hb, String.toList_append],
    fun prior ds => (hchain prior _).append (hchain' _ ds), ?_, ?_, List.flatMap_append⟩
  · rw [List.filterMap_append, hkinds, hkinds', List.flatten_append]
  · exact List.forall_mem_append.mpr ⟨hall, hall'⟩

theorem join {α : Type} {xs : List α} {text : α → String} {names : α → List String}
    (h : ∀ x ∈ xs, Declares (text x) (names x)) :
    Declares (String.join (xs.map text)) (xs.flatMap names) := by
  induction xs with
  | nil => exact empty
  | cons x xs ih =>
      rw [List.map_cons, String.join_cons, List.flatMap_cons]
      exact (h x List.mem_cons_self).append (ih fun y hy => h y (List.mem_cons_of_mem x hy))

theorem statement {ls : List Lexeme} (hspell : spell ls = s.toList)
    (hchain : ∀ prior ds, Chain prior ls ds)
    (h : isStatement 0 (ls.filterMap Lexeme.kind) = true) :
    Declares s (declaredBy (ls.filterMap Lexeme.kind)) :=
  ⟨ls, [ls.filterMap Lexeme.kind], hspell, hchain, by simp, by simpa using h, by simp⟩

theorem declaredNames_eq (h : Declares s ns) : declaredNames s = ns := by
  obtain ⟨ls, ss, hspell, hchain, hkinds, hall, rfl⟩ := h
  have hlexemes : lexemes none s.toList = ls := by
    have hread := lexemes_chain (hchain none [])
    rwa [List.append_nil, hspell, lexemes, List.append_nil] at hread
  rw [declaredNames, tokenize, map_kind_place, hlexemes, hkinds, statements_flatten hall]

end Declares

end StyleBundler.Script
