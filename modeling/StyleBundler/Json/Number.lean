import StyleBundler.Binary
import StyleBundler.Text.Digits

/-!
JSON numbers. A number is taken for a whole number below 2^64 times a power of ten: of
its digits those are dropped that do not fit. Both factors are rounded to 53 bits, and
the number is too large when their product is, also where the number itself is not.
-/

namespace StyleBundler.Json

open Text

/-- The value `significand * 10 ^ exponent`. -/
structure Decimal where
  significand : Nat
  exponent : Int
deriving DecidableEq, Repr

namespace Decimal

def limit : Nat := Nat.pow 2 64

/-- Digits before the point. From the first that does not fit on, each counts as a zero. -/
def ofWhole (significand : Nat) : List Char → Decimal
  | [] => ⟨significand, 0⟩
  | c :: cs =>
      let n := significand * 10 + hexValue c
      if n < limit then ofWhole n cs else ⟨significand, (c :: cs).length⟩

/-- Adds digits behind the point, up to the first that does not fit. -/
def addPart (d : Decimal) : List Char → Decimal
  | [] => d
  | c :: cs =>
      let n := d.significand * 10 + hexValue c
      if n < limit then addPart ⟨n, d.exponent - 1⟩ cs else d

/-- The digits before and after the point, times a power of ten. -/
def ofDigits (whole part : List Char) (exponent : Int) : Decimal :=
  let d := (ofWhole 0 whole).addPart part
  { d with exponent := d.exponent + exponent }

/-- The largest power of ten that 64 bits hold. -/
def maxExponent : Nat := 308

/-- Whether the value is too large for 64 bits. -/
def isTooLarge (d : Decimal) : Bool :=
  if d.significand = 0 || d.exponent < 0 then false
  else if maxExponent < d.exponent then true
  else
    let x := Binary.roundNat d.significand 1
    let y := Binary.roundNat (Nat.pow 10 d.exponent.toNat) 1
    Binary.atLeast ⟨x.num * y.num, x.scale + y.scale⟩ Binary.overflow

end Decimal

/-- What follows a number. -/
def afterNumber? (cs : List Char) : Option (List Char) := do
  let cs :=
    match cs with
    | '-' :: cs => cs
    | cs => cs
  let whole := cs.takeWhile Char.isDigit
  let rest := cs.dropWhile Char.isDigit
  let (part, rest) ←
    match rest with
    | '.' :: rest =>
        if (rest.takeWhile Char.isDigit).isEmpty then none
        else some (rest.takeWhile Char.isDigit, rest.dropWhile Char.isDigit)
    | rest => some ([], rest)
  let (exponent, rest) ←
    match rest with
    | e :: rest =>
        if e = 'e' ∨ e = 'E' then
          let (minus, rest) :=
            match rest with
            | '-' :: rest => (true, rest)
            | '+' :: rest => (false, rest)
            | rest => (false, rest)
          let digits := rest.takeWhile Char.isDigit
          let n : Int := digitsValue 10 digits
          if digits.isEmpty then none
          else some (if minus then -n else n, rest.dropWhile Char.isDigit)
        else some (0, e :: rest)
    | [] => some (0, [])
  if whole.isEmpty || (whole.head? == some '0' && whole.length != 1) ||
      (Decimal.ofDigits whole part exponent).isTooLarge then none
  else some rest

end StyleBundler.Json
