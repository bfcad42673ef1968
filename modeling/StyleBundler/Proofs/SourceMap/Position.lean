import StyleBundler.Proofs.Text.Cut
import StyleBundler.SourceMap.Mapping

/-!
Positions as what stands in front of them. The position of a byte offset is the one that the
characters in front of it lead to, and more characters lead further; on one line it moves by the
UTF-16 units of what is passed.
-/

namespace StyleBundler.SourceMap

open Text

namespace Position

/-- Where a text leads that starts at the position. -/
def behind (p : Position) (cs : List Char) : Position := cs.foldl advance p

/-- Where a text leads from the start. -/
def after (cs : List Char) : Position := behind ⟨0, 0⟩ cs

/-- On an earlier line, or further left. -/
def Before (p q : Position) : Prop := p.line < q.line ∨ (p.line = q.line ∧ p.column < q.column)

instance (p q : Position) : Decidable (p.Before q) := inferInstanceAs (Decidable (_ ∨ _))

@[simp] theorem behind_nil (p : Position) : p.behind [] = p := rfl

@[simp] theorem behind_cons (p : Position) (c : Char) (cs : List Char) :
    p.behind (c :: cs) = (p.advance c).behind cs := rfl

theorem after_append (a b : List Char) : after (a ++ b) = (after a).behind b :=
  List.foldl_append

theorem Before.trans {p q r : Position} (h : p.Before q) (h' : q.Before r) : p.Before r := by
  simp only [Before] at h h' ⊢
  omega

theorem Before.line_le {p q : Position} (h : p.Before q) : p.line ≤ q.line := by
  simp only [Before] at h
  omega

theorem before_advance (p : Position) (c : Char) : p.Before (p.advance c) := by
  rw [advance]
  split
  · exact .inl (Nat.lt_succ_self _)
  · refine .inr ⟨rfl, ?_⟩
    rw [units]
    split <;> simp

theorem before_behind (p : Position) {cs : List Char} (h : cs ≠ []) : p.Before (p.behind cs) := by
  induction cs generalizing p with
  | nil => exact absurd rfl h
  | cons c cs ih =>
      cases cs with
      | nil => exact before_advance p c
      | cons d cs => exact (before_advance p c).trans (ih (p.advance c) (List.cons_ne_nil _ _))

/-- Of two parts of a text from its start, the longer one leads further. -/
theorem after_before {a b a' b' : List Char} (h : a ++ b = a' ++ b')
    (hlen : byteLength a < byteLength a') : (after a).Before (after a') := by
  obtain ⟨d, rfl, -⟩ := exists_middle h (Nat.le_of_lt hlen)
  rw [after_append]
  refine before_behind _ ?_
  rintro rfl
  rw [List.append_nil] at hlen
  exact Nat.lt_irrefl _ hlen

/-- Without a line break only the column moves, by the width of what is passed. -/
theorem behind_of_not_mem (p : Position) {cs : List Char} (h : '\n' ∉ cs) :
    p.behind cs = ⟨p.line, p.column + (after cs).column⟩ := by
  induction cs generalizing p with
  | nil => rfl
  | cons c cs ih =>
      rw [List.mem_cons, not_or] at h
      have hadvance : ∀ q : Position, q.advance c = ⟨q.line, q.column + units c⟩ :=
        fun q => if_neg (Ne.symm h.1)
      rw [after, behind_cons, behind_cons, ih _ h.2, ih _ h.2, hadvance, hadvance, Nat.zero_add,
        Nat.add_assoc]

end Position

theorem Cursor.ofSearch_append (offset : Nat) (p : Position) (a b : List Char) :
    ofSearch (offset + byteLength a) offset p (a ++ b) =
      ⟨offset + byteLength a, p.behind a, b⟩ := by
  induction a generalizing offset p with
  | nil =>
      cases b with
      | nil => rfl
      | cons c b =>
          have := Char.utf8Size_pos c
          rw [List.nil_append, ofSearch, if_neg (by simp; omega)]
          rfl
  | cons c a ih =>
      have hrest := ih (offset + c.utf8Size) (p.advance c)
      rw [Nat.add_assoc] at hrest
      rw [List.cons_append, ofSearch, byteLength_cons, if_pos (by omega), hrest]
      rfl

/-- The position of an offset is where the text in front of it leads. -/
theorem positionAt_append (a b : List Char) :
    positionAt (a ++ b) (byteLength a) = .after a := by
  have hseek := Cursor.ofSearch_append 0 ⟨0, 0⟩ a b
  rw [Nat.zero_add] at hseek
  rw [positionAt, Cursor.seek, Cursor.start, hseek]
  rfl

theorem positionAt_eq {text a b : List Char} {n : Nat} (h : text = a ++ b)
    (hn : n = byteLength a) : positionAt text n = .after a := by
  rw [h, hn, positionAt_append]

end StyleBundler.SourceMap
