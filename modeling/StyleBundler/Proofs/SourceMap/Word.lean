import Mathlib.Tactic.Ring
import StyleBundler.SourceMap.Vlq

/-!
Numbers written from words of 64 bits. As long as a number fits into a word with the bit for its
sign, the digits of the word are those of the number. A larger one leaves a word below zero, of
which the digits never end (`encode?_ofInt`).
-/

namespace StyleBundler.Vlq

theorem fold_bounds (v : Int) : 2 * v.natAbs ≤ fold v ∧ fold v ≤ 2 * v.natAbs + 1 := by
  rw [fold]
  split <;> omega

namespace Word

theorem toNat_low {w : Int64} {n : Nat} (h : w.toInt = n) :
    (w &&& 31).toNatClampNeg = n % 32 := by
  have hn : w.toBitVec.toNat = n := by
    have hcases := BitVec.toInt_eq_toNat_cond w.toBitVec
    rw [Int64.toInt_toBitVec, h] at hcases
    have := w.toBitVec.isLt
    split at hcases <;> omega
  have hlow : (w &&& 31).toBitVec.toNat = n % 32 := by
    rw [Int64.toBitVec_and, BitVec.toNat_and, hn]
    exact Nat.and_two_pow_sub_one_eq_mod n 5
  rw [← Int64.toNat_toInt, ← Int64.toInt_toBitVec, BitVec.toInt_eq_toNat_of_lt (by omega), hlow]
  rfl

theorem or_more {n : Nat} (h : n < 32) : n ||| 32 = n + 32 := by
  have hsum := Nat.two_pow_add_eq_or_of_lt (i := 5) h 1
  rw [Nat.or_comm, Nat.add_comm]
  exact hsum.symm

theorem digits?_eq {w : Int64} {n : Nat} (h : w.toInt = n) : digits? w = some (encodeNat n) := by
  induction n using encodeNat.induct generalizing w with
  | case1 n hlast =>
      have hnext : w >>> 5 = 0 := by
        rw [← Int64.toInt_inj, toInt_next, h, Int64.toInt_zero]
        omega
      rw [digits?, encodeNat, if_pos hlast, hnext, toNat_low h, Nat.mod_eq_of_lt hlast]
      rfl
  | case2 n hmore ih =>
      have hnext : (w >>> 5).toInt = (n / 32 : Nat) := by
        rw [toInt_next, h]
        rfl
      have hpos : (0 : Int64) < w >>> 5 := by
        rw [Int64.lt_iff_toInt_lt, hnext, Int64.toInt_zero]
        omega
      have hzero : w >>> 5 ≠ 0 := by
        rw [ne_eq, ← Int64.toInt_inj, hnext, Int64.toInt_zero]
        omega
      have hsame : w >>> 5 ≠ w := by
        rw [ne_eq, ← Int64.toInt_inj, hnext, h]
        omega
      have hlow : n % 32 < 32 := Nat.mod_lt n (by decide)
      rw [digits?, encodeNat, if_neg hmore, if_neg hzero, if_neg hsame, ih hnext, toNat_low h,
        if_pos hpos, or_more hlow]
      rfl

/-- Shifts keep a word below zero there, and so it never gets to its last digit. -/
theorem digits?_eq_none {w : Int64} (h : w.toInt < 0) : digits? w = none := by
  have hnext := toInt_next w
  fun_induction digits? w with
  | case1 w low first hzero =>
      rw [hzero, Int64.toInt_zero] at hnext
      omega
  | case2 => rfl
  | case3 w low first hzero hsame ih =>
      rw [ih (by omega) (toInt_next _)]
      rfl

theorem shiftLeft_one (w : Int64) : w <<< 1 = w + w := by
  have hplaces : (1 : Int64).toBitVec.smod 64 = 1#64 := by decide
  rw [← Int64.toBitVec_inj, Int64.toBitVec_shiftLeft, Int64.toBitVec_add, hplaces]
  apply BitVec.eq_of_toNat_eq
  rw [BitVec.toNat_add]
  simp [Nat.shiftLeft_eq]
  omega

theorem shiftLeft_one_or (w : Int64) : w <<< 1 ||| 1 = w + w + 1 := by
  have hplaces : (1 : Int64).toBitVec.smod 64 = 1#64 := by decide
  rw [← shiftLeft_one, ← Int64.toBitVec_inj, Int64.toBitVec_or, Int64.toBitVec_add]
  refine (BitVec.add_eq_or_of_and_eq_zero _ _ ?_).symm
  apply BitVec.eq_of_toNat_eq
  rw [Int64.toBitVec_shiftLeft, hplaces, BitVec.toNat_and]
  simp [Nat.shiftLeft_eq, Nat.and_one_is_mod]

theorem toInt_fold {v : Int} (h : v.natAbs < 2 ^ 63) :
    (fold (Int64.ofInt v)).toInt = (Vlq.fold v : Int).bmod (2 ^ 64) := by
  have hv : (Int64.ofInt v).toInt = v := Int64.toInt_ofInt_of_le (by omega) (by omega)
  have hneg : (-Int64.ofInt v).toInt = -v := by
    rw [Int64.toInt_neg, hv, Int.bmod_eq_of_le (by omega) (by omega)]
  have hsign : Int64.ofInt v < 0 ↔ v < 0 := by
    rw [Int64.lt_iff_toInt_lt, hv, Int64.toInt_zero]
  by_cases hlt : v < 0
  · rw [fold, Vlq.fold, if_pos (hsign.mpr hlt), if_pos hlt, shiftLeft_one_or, Int64.toInt_add,
      Int64.toInt_add, hneg, Int64.toInt_one, Int.bmod_add_bmod]
    congr 1
    omega
  · rw [fold, Vlq.fold, if_neg (mt hsign.mp hlt), if_neg hlt, shiftLeft_one, Int64.toInt_add, hv]
    congr 1
    omega

/-- What a word is written as. The bit for the sign leaves 62 bits for the number. -/
theorem encode?_ofInt {v : Int} (h : v.natAbs < 2 ^ 63) :
    encode? (Int64.ofInt v) = if v.natAbs < 2 ^ 62 then some (encode v) else none := by
  have hfold := toInt_fold h
  obtain ⟨hmin, hmax⟩ := fold_bounds v
  split
  · rw [Int.bmod_eq_of_le (by omega) (by omega)] at hfold
    exact digits?_eq hfold
  · apply digits?_eq_none
    rw [hfold, Int.bmod_def]
    split <;> omega

end Word
end StyleBundler.Vlq
