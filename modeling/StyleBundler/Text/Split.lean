/-!
Cutting a text at a sign and putting the pieces together again. A text always has at
least one piece, and `joinWith_splitOn` says that the pieces make it up.
-/

namespace StyleBundler.Text

/-- The pieces between the occurrences of `sign`, empty ones included. -/
def splitOn (sign : Char) : List Char → List (List Char)
  | [] => [[]]
  | c :: cs =>
      if c = sign then [] :: splitOn sign cs
      else
        match splitOn sign cs with
        | [] => [[c]]
        | piece :: pieces => (c :: piece) :: pieces

def joinWith (sign : Char) : List (List Char) → List Char
  | [] => []
  | [piece] => piece
  | piece :: next :: pieces => piece ++ sign :: joinWith sign (next :: pieces)

theorem splitOn_ne_nil (sign : Char) (cs : List Char) : splitOn sign cs ≠ [] := by
  cases cs with
  | nil => simp [splitOn]
  | cons c cs =>
      simp only [splitOn]
      split
      · simp
      · split <;> simp

theorem joinWith_splitOn (sign : Char) (cs : List Char) :
    joinWith sign (splitOn sign cs) = cs := by
  fun_induction splitOn sign cs with
  | case1 => rfl
  | case2 cs ih =>
      cases h : splitOn sign cs with
      | nil => exact absurd h (splitOn_ne_nil sign cs)
      | cons piece pieces => rw [h] at ih; simp [joinWith, ih]
  | case3 c cs hc h => exact absurd h (splitOn_ne_nil sign cs)
  | case4 c cs hc piece pieces h ih =>
      rw [h] at ih
      cases pieces with
      | nil => simp_all [joinWith]
      | cons next pieces => simp_all [joinWith]

/-- The text without what satisfies `p` at its two ends. -/
def trimBoth (p : Char → Bool) (cs : List Char) : List Char :=
  ((cs.dropWhile p).reverse.dropWhile p).reverse

/-- The text without what satisfies `p` at its end. -/
def trimEnd (p : Char → Bool) (cs : List Char) : List Char :=
  (cs.reverse.dropWhile p).reverse

/-- What follows a given start of the text. -/
def after? : List Char → List Char → Option (List Char)
  | [], cs => some cs
  | _ :: _, [] => none
  | p :: ps, c :: cs => if p = c then after? ps cs else none

theorem after?_eq_some_iff {start cs rest : List Char} :
    after? start cs = some rest ↔ cs = start ++ rest := by
  induction start generalizing cs with
  | nil => simp [after?, eq_comm]
  | cons p ps ih =>
      cases cs with
      | nil => simp [after?]
      | cons c cs =>
          simp only [after?]
          split
          · next h => subst h; simp [ih]
          · next h => simp [Ne.symm h]

end StyleBundler.Text
