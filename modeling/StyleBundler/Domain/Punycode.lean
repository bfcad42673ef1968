import StyleBundler.Text.Digits

/-!
Punycode: labels written with ASCII letters and digits. The ASCII characters of a label
come first. Behind the last hyphen stand numbers, one for each other character, that tell
how far to go on from the place and the code point of the one before.
-/

namespace StyleBundler.Domain.Punycode

/-- Numbers stay below 2^32. -/
def limit : Nat := 0x100000000

/-- Letters are the digits up to 25, and digits go on from there. -/
def digitValue? (c : Char) : Option Nat :=
  if 'a' ≤ c && c ≤ 'z' then some (c.toNat - 'a'.toNat)
  else if c.isDigit then some (c.toNat - '0'.toNat + 26)
  else none

/-- A digit below the threshold of its place ends a number. -/
def threshold (bias place : Nat) : Nat :=
  if place ≤ bias then 1 else if bias + 26 ≤ place then 26 else place - bias

/-- Adds a number to `sum`, its lowest digit first, and gives what follows it. -/
def addNumber? (bias place weight sum : Nat) : List Char → Option (Nat × List Char)
  | [] => none
  | c :: cs => do
      let d ← digitValue? c
      let sum := sum + d * weight
      let t := threshold bias place
      if limit ≤ sum then none
      else if d < t then some (sum, cs)
      else if limit ≤ weight * (36 - t) then none
      else addNumber? bias (place + 36) (weight * (36 - t)) sum cs

theorem length_lt_of_addNumber? {bias place weight sum n : Nat} {cs rest : List Char}
    (h : addNumber? bias place weight sum cs = some (n, rest)) :
    rest.length < cs.length := by
  induction cs generalizing place weight sum with
  | nil => simp [addNumber?] at h
  | cons c cs ih =>
      simp only [addNumber?, Option.bind_eq_bind, Option.bind_eq_some_iff] at h
      obtain ⟨d, -, h⟩ := h
      split at h
      · cases h
      · split at h
        · cases h; simp
        · split at h
          · cases h
          · exact Nat.lt_succ_of_lt (ih h)

/-- Divides a number by 35 until it is small, counting the places. -/
def shrink (place n : Nat) : Nat × Nat :=
  if 455 < n then shrink (place + 36) (n / 35) else (place, n)
termination_by n
decreasing_by omega

/-- The bias for the next number, after one that took the place `step` further among
`count` characters. -/
def adapt (step count : Nat) (isFirst : Bool) : Nat :=
  let n := if isFirst then step / 700 else step / 2
  let (place, n) := shrink 0 (n + n / count)
  place + 36 * n / (n + 38)

/-- Puts the characters of the numbers in their places: the next one counts on from the
code point `code` and the place `place`. -/
def insertAll? (bias code place : Nat) (found cs : List Char) : Option (List Char) :=
  match cs with
  | [] => some found
  | c :: rest =>
      match _read : addNumber? bias 36 1 place (c :: rest) with
      | none => none
      | some (n, tail) =>
          let count := found.length + 1
          let code := code + n / count
          if code < 0xD800 || (0xDFFF < code && code < 0x110000) then
            insertAll? (adapt (n - place) count (place == 0)) code (n % count + 1)
              (found.insertIdx (n % count) (Char.ofNat code)) tail
          else none
termination_by cs.length
decreasing_by exact length_lt_of_addNumber? _read

/-- The characters that a text stands for. A hyphen in front of it is none that ends the
ASCII characters. -/
def decode? (cs : List Char) : Option (List Char) :=
  let numbers := (cs.reverse.takeWhile (· != '-')).reverse
  let front := cs.take (cs.length - numbers.length - 1)
  if front.isEmpty then insertAll? 72 128 0 [] cs else insertAll? 72 128 0 front numbers

end StyleBundler.Domain.Punycode
