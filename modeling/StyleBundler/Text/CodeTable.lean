import StyleBundler.Text.Digits
import StyleBundler.Text.Split

/-!
Tables of characters, written as text. An entry is a code point or a range of them in
hexadecimal, such as `5F` or `41-5A`, and with `/2` behind it every second one of the
range. The code points behind a colon go with the entry. Entries are in order, and none
overlaps the next.
-/

namespace StyleBundler.Text

/-- Code points in equal steps, and what goes with them. -/
structure CodeRange where
  first : Nat
  last : Nat
  step : Nat
  values : List Nat
deriving DecidableEq, Repr, Inhabited

namespace CodeRange

def covers (r : CodeRange) (n : Nat) : Bool :=
  r.first ≤ n && n ≤ r.last && (n - r.first) % r.step == 0

/-- Reads an entry. -/
def ofWord (word : List Char) : CodeRange :=
  let front := word.takeWhile (· != ':')
  let range := front.takeWhile (· != '/')
  let first := range.takeWhile (· != '-')
  let last := (range.dropWhile (· != '-')).drop 1
  let step := (front.dropWhile (· != '/')).drop 1
  let values := (word.dropWhile (· != ':')).drop 1
  ⟨digitsValue 16 first, digitsValue 16 (if last.isEmpty then first else last),
    if step.isEmpty then 1 else digitsValue 16 step,
    if values.isEmpty then [] else (splitOn ',' values).map (digitsValue 16)⟩

end CodeRange

abbrev CodeTable := Array CodeRange

namespace CodeTable

/-- Reads a table; line breaks count as blanks between its entries. -/
def ofText (text : String) : CodeTable :=
  let words := splitOn ' ' (text.toList.map fun c => if c = '\n' then ' ' else c)
  ((words.filter (!·.isEmpty)).map CodeRange.ofWord).toArray

/-- The entry of a code point among `count` of them from `start` on. -/
def search (t : CodeTable) (n start count : Nat) : Option CodeRange :=
  if 0 < count then
    match t[start + count / 2]? with
    | none => none
    | some r =>
        if n < r.first then search t n start (count / 2)
        else if r.last < n then
          search t n (start + count / 2 + 1) (count - count / 2 - 1)
        else if r.covers n then some r
        else none
  else none
termination_by count
decreasing_by all_goals omega

/-- The entry of a character. -/
def find? (t : CodeTable) (c : Char) : Option CodeRange := t.search c.toNat 0 t.size

def has (t : CodeTable) (c : Char) : Bool := (t.find? c).isSome

theorem covers_of_search {t : CodeTable} {n start count : Nat} {r : CodeRange}
    (h : t.search n start count = some r) : r.covers n = true := by
  fun_induction search t n start count <;> simp_all

end CodeTable
end StyleBundler.Text
