import Mathlib.Tactic.Ring
import StyleBundler.Proofs.Script.Cursor
import StyleBundler.Proofs.SourceMap.Vlq
import StyleBundler.Proofs.SourceMap.Word

/-!
Numbers written one behind the other, with nothing between them. A reader of the format goes over
the text digit by digit and puts the numbers together by itself; a number ends with the digit that
has no bit for more. It reads the numbers of which the text was written, and what follows them as
it would without them (`numbers?_flatMap_encode`).
-/

namespace StyleBundler.Vlq

open Script.Cursor (IsWide isAlpha_of_isWide isDigit_of_isWide)

/-- The value of a digit: letters, capital ones first, then ciphers, a plus sign and a slash. -/
def sextet? (c : Char) : Option Nat :=
  if c.isUpper then some (c.toNat - 'A'.toNat)
  else if c.isLower then some (c.toNat - 'a'.toNat + 26)
  else if c.isDigit then some (c.toNat - '0'.toNat + 52)
  else if c = '+' then some 62
  else if c = '/' then some 63
  else none

/-- Reads all numbers of a text. Of the number that is read next `value` is known, and its next
digit counts `weight` times. A text that ends inside a number is refused. -/
def numbersFrom (weight value : Nat) : List Char → Option (List Int)
  | [] => if weight = 1 then some [] else none
  | c :: cs => do
      let d ← sextet? c
      let value := value + d % 32 * weight
      if d < 32 then (numbersFrom 1 0 cs).map (unfold value :: ·)
      else numbersFrom (32 * weight) value cs

def numbers? (cs : List Char) : Option (List Int) := numbersFrom 1 0 cs

@[simp] theorem numbers?_nil : numbers? [] = some [] := rfl

theorem sextet?_eq_none {c : Char} (h : IsWide c) : sextet? c = none := by
  obtain ⟨hupper, hlower⟩ : c.isUpper = false ∧ c.isLower = false :=
    Bool.or_eq_false_iff.mp (isAlpha_of_isWide h)
  have hplus : c ≠ '+' := by
    rintro rfl
    exact absurd h (by decide)
  have hslash : c ≠ '/' := by
    rintro rfl
    exact absurd h (by decide)
  simp [sextet?, hupper, hlower, isDigit_of_isWide h, hplus, hslash]

/-- The digits that are written have these values. -/
theorem digitValue?_eq (c : Char) : digitValue? c = sextet? c := by
  by_cases h : IsWide c
  · have hascii : (alphabet.all fun d => !decide (IsWide d)) = true := by decide +kernel
    rw [sextet?_eq_none h, digitValue?, List.findIdx?_eq_none_iff]
    intro d hd
    rw [beq_eq_false_iff_ne]
    rintro rfl
    simpa [h] using List.all_eq_true.mp hascii d hd
  · have hall : ∀ n < 0x80, digitValue? (Char.ofNat n) = sextet? (Char.ofNat n) := by
      decide +kernel
    have hc := hall c.toNat (Nat.lt_of_not_le h)
    rwa [Char.ofNat_toNat] at hc

theorem sextet?_lt {c : Char} {d : Nat} (h : sextet? c = some d) : d < 64 := by
  rw [← digitValue?_eq, digitValue?, List.findIdx?_eq_some_iff_getElem] at h
  obtain ⟨hd, -⟩ := h
  exact hd

/-- The digits that are left of a number are read up to the last one, and then the numbers behind
it. -/
theorem numbersFrom_eq {weight : Nat} {cs : List Char} (h : weight ≠ 1 ∨ cs ≠ []) (value : Nat) :
    numbersFrom weight value cs = (decodeNat cs).bind fun (n, rest) =>
      (numbers? rest).map (unfold (value + n * weight) :: ·) := by
  induction cs generalizing weight value with
  | nil =>
      rw [numbersFrom, if_neg (h.resolve_right fun hne => hne rfl)]
      rfl
  | cons c cs ih =>
      rw [numbersFrom, decodeNat, digitValue?_eq]
      cases hd : sextet? c with
      | none => rfl
      | some d =>
          by_cases hlast : d < 32
          · simp [hlast, Nat.mod_eq_of_lt hlast, numbers?]
          · have hmod : d % 32 = d - 32 := by
              have := sextet?_lt hd
              omega
            simp only [Option.bind_eq_bind, Option.bind_some, if_neg hlast]
            -- The next digit counts more than once, even if the text ends here.
            rw [ih (.inl (by omega))]
            cases decodeNat cs with
            | none => rfl
            | some found =>
                have hsum : value + d % 32 * weight + found.1 * (32 * weight) =
                    value + (d - 32 + 32 * found.1) * weight := by
                  rw [hmod]
                  ring
                simp only [Option.bind_some, Option.map_some, hsum]

theorem numbers?_encode_append (v : Int) (rest : List Char) :
    numbers? (encode v ++ rest) = (numbers? rest).map (v :: ·) := by
  obtain ⟨n, cs, -, hdigits⟩ := exists_digit_of_encode v
  rw [numbers?, numbersFrom_eq (.inr (by simp [hdigits])), encode, decodeNat_encodeNat]
  simp only [Option.bind_some, Nat.zero_add, Nat.mul_one, unfold_fold]

theorem numbers?_flatMap_append (vs : List Int) (rest : List Char) :
    numbers? (vs.flatMap encode ++ rest) = (numbers? rest).map (vs ++ ·) := by
  induction vs with
  | nil => simp
  | cons v vs ih =>
      rw [List.flatMap_cons, List.append_assoc, numbers?_encode_append, ih, Option.map_map]
      rfl

/-- Numbers that fit into words are written from them with the same digits, and the text of a list
of them reads back as the list, the whole text being used up. No number runs into what follows:
any other text behind them is read as it is alone. -/
theorem numbers?_flatMap_encode {vs : List Int} (h : ∀ v ∈ vs, v.natAbs < 2 ^ 62) :
    (∀ v ∈ vs, Word.encode? (Int64.ofInt v) = some (encode v)) ∧
      numbers? (vs.flatMap encode) = some vs ∧
      ∀ rest, numbers? (vs.flatMap encode ++ rest) = (numbers? rest).map (vs ++ ·) := by
  refine ⟨fun v hv => ?_, ?_, numbers?_flatMap_append vs⟩
  · have hlt := h v hv
    rw [Word.encode?_ofInt (by omega), if_pos hlt]
  · have hread := numbers?_flatMap_append vs []
    rwa [List.append_nil, numbers?_nil, Option.map_some, List.append_nil] at hread

/-- The largest and the smallest number, and some where one more digit is needed. -/
theorem numbers?_flatMap_encode_bounds :
    let vs : List Int := [2 ^ 62 - 1, 15, -15, 16, 0, 511, 512, -(2 ^ 62 - 1)]
    let text := "+///////////HefgBA+fggB////////////H".toList
    (∀ v ∈ vs, v.natAbs < 2 ^ 62) ∧ vs.flatMap encode = text ∧ numbers? text = some vs ∧
      Word.encode? (Int64.ofInt (2 ^ 62 - 1)) = some "+///////////H".toList := by
  intro vs text
  have hbounds : ∀ v ∈ vs, v.natAbs < 2 ^ 62 := by decide
  have htext : vs.flatMap encode = text := by decide +kernel
  have hlargest : encode (2 ^ 62 - 1) = "+///////////H".toList := by decide +kernel
  obtain ⟨hwords, hread, -⟩ := numbers?_flatMap_encode hbounds
  rw [htext] at hread
  refine ⟨hbounds, htext, hread, ?_⟩
  rw [hwords _ List.mem_cons_self, hlargest]

end StyleBundler.Vlq
