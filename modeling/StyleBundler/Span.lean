/-!
Byte ranges of a source text, and cutting a text at a byte offset. Offsets count
UTF-8 bytes, so a cut exists only at a character boundary; `Text.cut?` finds it
and `Text.slice?` reads the text of a range.
-/

namespace StyleBundler

/-- The bytes from `start` up to, not including, `stop`. -/
structure Span where
  start : Nat
  stop : Nat
deriving DecidableEq, Repr, Inhabited

namespace Span

def isEmpty (s : Span) : Bool := s.start == s.stop

/-- The same range in a text that has `n` more bytes in front. -/
def shift (n : Nat) (s : Span) : Span := ⟨s.start + n, s.stop + n⟩

end Span

namespace Text

/-- The number of bytes that the characters take in UTF-8. -/
def byteLength : List Char → Nat
  | [] => 0
  | c :: cs => c.utf8Size + byteLength cs

@[simp] theorem byteLength_nil : byteLength [] = 0 := rfl

@[simp] theorem byteLength_cons (c : Char) (cs : List Char) :
    byteLength (c :: cs) = c.utf8Size + byteLength cs := rfl

@[simp] theorem byteLength_append (a b : List Char) :
    byteLength (a ++ b) = byteLength a + byteLength b := by
  induction a with
  | nil => simp
  | cons c a ih => simp [ih, Nat.add_assoc]

/-- Splits a text at a byte offset; nothing when the offset is past the end or
inside a character. -/
def cut? (n : Nat) : List Char → Option (List Char × List Char)
  | [] => if n = 0 then some ([], []) else none
  | c :: cs =>
      if n = 0 then some ([], c :: cs)
      else if c.utf8Size ≤ n then
        (cut? (n - c.utf8Size) cs).map fun parts => (c :: parts.1, parts.2)
      else none

/-- The text of a range whose two ends are character boundaries. -/
def slice? (cs : List Char) (s : Span) : Option (List Char) :=
  if s.start ≤ s.stop then do
    let (_, tail) ← cut? s.start cs
    let (part, _) ← cut? (s.stop - s.start) tail
    some part
  else none

/-- The text of a range, empty when the range does not fit the text. -/
def slice (cs : List Char) (s : Span) : List Char := (slice? cs s).getD []

@[simp] theorem cut?_zero (cs : List Char) : cut? 0 cs = some ([], cs) := by
  cases cs <;> simp [cut?]

/-- Cutting behind a text that stands in front gives that text back. -/
theorem cut?_append (a b : List Char) : cut? (byteLength a) (a ++ b) = some (a, b) := by
  induction a with
  | nil => simp
  | cons c a ih =>
      have hc : c.utf8Size ≠ 0 := Nat.ne_of_gt (Char.utf8Size_pos c)
      simp [cut?, hc, ih]

/-- A cut behind a text that stands in front is one of the text behind it. -/
theorem cut?_append_add (a b : List Char) (n : Nat) :
    cut? (byteLength a + n) (a ++ b) = (cut? n b).map fun parts => (a ++ parts.1, parts.2) := by
  induction a with
  | nil => simp
  | cons c a ih =>
      have hc : c.utf8Size ≠ 0 := Nat.ne_of_gt (Char.utf8Size_pos c)
      have hn : c.utf8Size + byteLength a + n - c.utf8Size = byteLength a + n := by omega
      have hle : c.utf8Size ≤ c.utf8Size + byteLength a + n := by omega
      simp [cut?, hc, hn, hle, ih, Function.comp_def]

end Text
end StyleBundler
