/-!
Signed numbers as base 64 digits: the sign is the lowest bit, then five bits to a
digit, lowest first, and every digit but the last has its sixth bit set. `decode`
reads what `encode` writes. `Word.encode?` writes the same digits from a word of 64
bits, as long as the number fits into the word with its sign.
-/

namespace StyleBundler.Vlq

def alphabet : List Char :=
  "ABCDEFGHIJKLMNOPQRSTUVWXYZabcdefghijklmnopqrstuvwxyz0123456789+/".toList

def digit (n : Nat) : Char := alphabet.getD n '='

/-- The digits of a number without its sign. -/
def encodeNat (n : Nat) : List Char :=
  if n < 32 then [digit n] else digit (n % 32 + 32) :: encodeNat (n / 32)
termination_by n
decreasing_by omega

/-- The sign moved to the lowest bit. -/
def fold (v : Int) : Nat := if v < 0 then 2 * v.natAbs + 1 else 2 * v.natAbs

def encode (v : Int) : List Char := encodeNat (fold v)

def digitValue? (c : Char) : Option Nat := alphabet.findIdx? (· == c)

/-- The number at the start of a text, and the text after its last digit. -/
def decodeNat : List Char → Option (Nat × List Char)
  | [] => none
  | c :: cs =>
      match digitValue? c with
      | none => none
      | some d =>
          if d < 32 then some (d, cs)
          else (decodeNat cs).map fun (n, rest) => (d - 32 + 32 * n, rest)

def unfold (n : Nat) : Int := if n % 2 = 1 then -(n / 2 : Nat) else (n / 2 : Nat)

def decode (cs : List Char) : Option (Int × List Char) :=
  (decodeNat cs).map fun (n, rest) => (unfold n, rest)

namespace Word

/-- The sign moved to the lowest bit of the word. -/
def fold (v : Int64) : Int64 := if v < 0 then (-v) <<< 1 ||| 1 else v <<< 1

theorem toInt_next (w : Int64) : (w >>> 5).toInt = w.toInt / 32 := by
  have hplaces : ((5 : Int64).toBitVec.smod 64).toNat = 5 := by decide
  rw [← Int64.toInt_toBitVec, Int64.toBitVec_shiftRight, BitVec.sshiftRight', hplaces,
    BitVec.toInt_sshiftRight, Int.shiftRight_eq_div_pow]
  rfl

theorem natAbs_next_lt {w : Int64} (h : w >>> 5 ≠ w) :
    (w >>> 5).toInt.natAbs < w.toInt.natAbs := by
  rw [ne_eq, ← Int64.toInt_inj, toInt_next] at h
  rw [toInt_next]
  omega

/-- The digits of a word, up to the one that leaves nothing. There is no result where a shift
leaves the word as it is, so that there would be no last digit. -/
def digits? (w : Int64) : Option (List Char) :=
  let low := (w &&& 31).toNatClampNeg
  let first := digit (if (0 : Int64) < w >>> 5 then low ||| 32 else low)
  if w >>> 5 = 0 then some [first]
  else if w >>> 5 = w then none
  else (digits? (w >>> 5)).map (first :: ·)
termination_by w.toInt.natAbs
decreasing_by exact natAbs_next_lt ‹_›

def encode? (v : Int64) : Option (List Char) := digits? (fold v)

end Word

end StyleBundler.Vlq
