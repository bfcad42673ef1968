/-!
Numbers with 53 significant bits, rounded to the nearest and a tie to even, and their text
with a fixed number of places by the same rule.
-/

namespace StyleBundler

/-- The value `num / 2 ^ scale`. -/
structure Binary where
  num : Int
  scale : Nat
deriving DecidableEq, Repr

namespace Binary

/-- The natural number nearest to a quotient, the even one of two. -/
def roundDiv (num den : Nat) : Nat :=
  let q := num / den
  let r := num % den
  if 2 * r < den then q
  else if den < 2 * r then q + 1
  else if q % 2 = 0 then q
  else q + 1

/-- The denominator. -/
def den (x : Binary) : Nat := Nat.pow 2 x.scale

/-- The value with 53 significant bits nearest to a positive quotient. -/
def roundNat (num den : Nat) : Binary :=
  if num = 0 then ⟨0, 0⟩
  else
    let guess : Int := 52 + Nat.log2 den - Nat.log2 num
    let scaled (shift : Int) : Nat × Nat :=
      if 0 ≤ shift then (num * Nat.pow 2 shift.toNat, den)
      else (num, den * Nat.pow 2 (-shift).toNat)
    let (n, d) := scaled guess
    let shift := if n / d < Nat.pow 2 52 then guess + 1 else guess
    let (n, d) := scaled shift
    let m := roundDiv n d
    if 0 ≤ shift then ⟨m, shift.toNat⟩ else ⟨(m * Nat.pow 2 (-shift).toNat : Nat), 0⟩

/-- The value with 53 significant bits nearest to a quotient. -/
def round (num : Int) (den : Nat) : Binary :=
  let r := roundNat num.natAbs den
  if num < 0 then ⟨-r.num, r.scale⟩ else r

def add (x y : Binary) : Binary := round (x.num * y.den + y.num * x.den) (x.den * y.den)

def neg (x : Binary) : Binary := ⟨-x.num, x.scale⟩

def mul (x : Binary) (n : Nat) : Binary := round (x.num * n) x.den

def div (x : Binary) (n : Nat) : Binary := round x.num (x.den * n)

def floor (x : Binary) : Nat := (x.num / x.den).toNat

/-- Whether the value is at least a natural number. -/
def atLeast (x : Binary) (n : Nat) : Bool := (n : Int) * x.den ≤ x.num

/-- The least value that rounds to 2^1024, which is no number of 64 bits. -/
def overflow : Nat := Nat.pow 2 1024 - Nat.pow 2 970

/-- The text with a fixed number of places behind the point. -/
def text (places : Nat) (x : Binary) : String :=
  let unit := Nat.pow 10 places
  let scaled := roundDiv (x.num.natAbs * unit) x.den
  let whole := toString (scaled / unit)
  let part := toString (scaled % unit)
  let sign := if x.num < 0 then "-" else ""
  if places = 0 then sign ++ whole
  else sign ++ whole ++ "." ++ String.ofList (List.replicate (places - part.length) '0') ++ part

end Binary

end StyleBundler
