import StyleBundler.Proofs.Script.Chain

/-!
Script text that is written piece by piece. Sound pieces, with something between any two words,
are read back one by one, whatever stands around them (`chain_write`).
-/

namespace StyleBundler.Script

open Lexer

/-- A piece of written text: a token or a blank. -/
inductive Piece where
  | word (name : String)
  | sign (c : Char)
  | blank (c : Char)
  | quote (value : String)

namespace Piece

def lexeme : Piece → Lexeme
  | word name => ⟨some (.ident name), name.toList⟩
  | sign c => ⟨some (.punct c), [c]⟩
  | blank c => ⟨none, [c]⟩
  | quote value => ⟨some (.str value), '\'' :: (value.toList ++ ['\''])⟩

/-- The piece is read back as what it is. -/
def Sound : Piece → Prop
  | word name => IsName name.toList
  | sign c => isSign c = true
  | blank c => isSpace c = true
  | quote value => value.toList.all isPlain = true

instance (p : Piece) : Decidable p.Sound :=
  match p with
  | word name => inferInstanceAs (Decidable (IsName name.toList))
  | sign c => inferInstanceAs (Decidable (isSign c = true))
  | blank c => inferInstanceAs (Decidable (isSpace c = true))
  | quote value => inferInstanceAs (Decidable (value.toList.all isPlain = true))

def isWord : Piece → Bool
  | word _ => true
  | _ => false

/-- No word runs into another one, or into what follows. -/
def spaced : List Piece → Bool
  | [] => true
  | [p] => !p.isWord
  | p :: q :: ps => !(p.isWord && q.isWord) && spaced (q :: ps)

def write (ps : List Piece) : List Lexeme := ps.map lexeme

@[simp] theorem write_nil : write [] = [] := rfl

@[simp] theorem write_cons (p : Piece) (ps : List Piece) :
    write (p :: ps) = p.lexeme :: write ps := rfl

@[simp] theorem write_append (a b : List Piece) : write (a ++ b) = write a ++ write b :=
  List.map_append

/-- What is no word starts with a sign that no name has. -/
theorem Sound.head?_text {p : Piece} (h : p.Sound) (hword : p.isWord = false) :
    ∃ c cs, p.lexeme.text = c :: cs ∧ isNameChar c = false := by
  cases p with
  | word name => cases hword
  | sign c =>
      refine ⟨c, [], rfl, ?_⟩
      simp only [Sound, isSign, Bool.not_eq_true', Bool.or_eq_false_iff] at h
      exact h.2
  | blank c =>
      refine ⟨c, [], rfl, ?_⟩
      simp only [Sound, isSpace, Bool.or_eq_true, beq_iff_eq] at h
      rcases h with (((rfl | rfl) | rfl) | rfl) | rfl <;> rfl
  | quote value => exact ⟨'\'', _, rfl, rfl⟩

theorem Sound.stands {p : Piece} (h : p.Sound) (prior : Option TokenKind) {ds : List Char}
    (hds : p.isWord = true → ∀ d, ds.head? = some d → isNameChar d = false) :
    Stands prior p.lexeme ds := by
  cases p with
  | word name => exact stands_name prior h (hds rfl)
  | sign c => exact stands_sign prior h ds
  | blank c => exact stands_blank prior h ds
  | quote value => exact stands_plain prior h ds

theorem chain_write {ps : List Piece} (hsound : ∀ p ∈ ps, p.Sound) (hspaced : spaced ps = true)
    (prior : Option TokenKind) (ds : List Char) : Chain prior (write ps) ds := by
  fun_induction spaced ps generalizing prior with
  | case1 => trivial
  | case2 p =>
      refine ⟨(hsound p List.mem_cons_self).stands prior fun hword => ?_, trivial⟩
      rw [hword] at hspaced
      cases hspaced
  | case3 p q ps ih =>
      obtain ⟨hapart, hspaced⟩ := Bool.and_eq_true_iff.mp hspaced
      refine ⟨(hsound p List.mem_cons_self).stands prior fun hword => ?_,
        ih (fun r hr => hsound r (List.mem_cons_of_mem p hr)) hspaced _⟩
      have hq : q.isWord = false := by simpa [hword] using hapart
      obtain ⟨c, cs, htext, hc⟩ := (hsound q (by simp)).head?_text hq
      rintro d hd
      rw [List.map_cons, spell_cons, htext] at hd
      cases hd
      exact hc

theorem spaced_append {a b : List Piece} (ha : spaced a = true) (hb : spaced b = true) :
    spaced (a ++ b) = true := by
  fun_induction spaced a with
  | case1 => exact hb
  | case2 p =>
      cases b with
      | nil => exact ha
      | cons q b =>
          rw [Bool.not_eq_true'] at ha
          simpa [spaced, ha] using hb
  | case3 p q ps ih =>
      obtain ⟨hapart, ha⟩ := Bool.and_eq_true_iff.mp ha
      exact Bool.and_eq_true_iff.mpr ⟨hapart, ih ha⟩

/-- What comes behind a value: a piece that is no word keeps it apart. -/
def Closable (v : List Piece) : Prop := ∀ p : Piece, p.isWord = false → spaced (v ++ [p]) = true

theorem closable_of_spaced {v : List Piece} (h : spaced v = true) : Closable v := by
  intro p hp
  exact spaced_append h (by rw [spaced, hp]; rfl)

theorem closable_word (name : String) : Closable [word name] := by
  intro p hp
  cases p with
  | word => cases hp
  | sign | blank | quote => rfl

/-- The object whose default is a value. -/
def object (v : List Piece) : List Piece :=
  [sign '\x7b', blank ' ', word "default", sign ':', blank ' '] ++ (v ++ [blank ' ', sign '\x7d'])

/-- The statement that binds a name to a value. -/
def binding (name : String) (v : List Piece) : List Piece :=
  [word "const", blank ' '] ++ word name :: ([blank ' ', sign '=', blank ' '] ++
    (v ++ [sign ';', blank '\n']))

/-- The call that gives a promise of a value, with `await` in front if it is awaited. -/
def promise (v : List Piece) (awaited : Bool) : List Piece :=
  (if awaited then [word "await", blank ' '] else []) ++
    ([word "Promise", sign '.', word "resolve", sign '('] ++ (v ++ [sign ')']))

/-- Names with a comma and a blank between any two. -/
def listed : List String → List Piece
  | [] => []
  | [name] => [word name]
  | name :: next :: names => word name :: sign ',' :: blank ' ' :: listed (next :: names)

theorem spell_listed (names : List String) :
    spell (write (listed names)) = (", ".intercalate names).toList := by
  rw [String.toList_intercalate]
  fun_induction listed names with
  | case1 => rfl
  | case2 name => simp [lexeme]
  | case3 name next names ih =>
      rw [write_cons, write_cons, write_cons, spell_cons, spell_cons, spell_cons, ih]
      simp [lexeme, List.intercalate]

theorem spaced_listed (names : List String) (c : Char) :
    spaced (listed names ++ [blank c]) = true := by
  fun_induction listed names with
  | case1 | case2 => rfl
  | case3 name next names ih =>
      cases names with
      | nil => rfl
      | cons => simpa [listed, spaced, isWord] using ih

theorem mem_listed {names : List String} {p : Piece} (h : p ∈ listed names) :
    (∃ name ∈ names, p = word name) ∨ p = sign ',' ∨ p = blank ' ' := by
  fun_induction listed names with
  | case1 => cases h
  | case2 name =>
      rw [List.mem_singleton] at h
      exact .inl ⟨name, List.mem_cons_self, h⟩
  | case3 name next names ih =>
      simp only [List.mem_cons] at h
      rcases h with rfl | rfl | rfl | h
      · exact .inl ⟨name, List.mem_cons_self, rfl⟩
      · exact .inr (.inl rfl)
      · exact .inr (.inr rfl)
      · refine (ih h).imp ?_ id
        rintro ⟨other, hother, rfl⟩
        exact ⟨other, List.mem_cons_of_mem name hother, rfl⟩

end Piece

end StyleBundler.Script
