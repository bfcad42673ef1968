import StyleBundler.SourceMap.Vlq

/-!
Numbers in base 64 digits read back as they were written, whatever follows them.
-/

namespace StyleBundler.Vlq

/-- Each digit has its own value. -/
theorem digitValue?_digit {n : Nat} (h : n < 64) : digitValue? (digit n) = some n := by
  have hdigits : ∀ n : Fin 64, digitValue? (digit n) = some n.val := by decide +kernel
  exact hdigits ⟨n, h⟩

theorem decodeNat_encodeNat (n : Nat) (rest : List Char) :
    decodeNat (encodeNat n ++ rest) = some (n, rest) := by
  induction n using encodeNat.induct with
  | case1 n hlast =>
      rw [encodeNat, if_pos hlast, List.singleton_append, decodeNat,
        digitValue?_digit (by omega)]
      simp only [hlast, if_true]
  | case2 n hmore ih =>
      rw [encodeNat, if_neg hmore, List.cons_append, decodeNat, digitValue?_digit (by omega)]
      simp only [ih, Option.map_some]
      rw [if_neg (by omega)]
      congr 2
      omega

theorem unfold_fold (v : Int) : unfold (fold v) = v := by
  rw [fold, unfold]
  split <;> split <;> omega

theorem decode_encode (v : Int) (rest : List Char) :
    decode (encode v ++ rest) = some (v, rest) := by
  rw [decode, encode, decodeNat_encodeNat]
  simp only [Option.map_some, unfold_fold]

theorem decodeNat_shortens {cs rest : List Char} {n : Nat} (h : decodeNat cs = some (n, rest)) :
    rest.length < cs.length := by
  induction cs generalizing n with
  | nil => cases h
  | cons c cs ih =>
      rw [decodeNat] at h
      split at h
      · cases h
      · split at h
        · cases h
          exact Nat.lt_succ_self _
        · obtain ⟨⟨m, tail⟩, htail, hparts⟩ := Option.map_eq_some_iff.mp h
          cases hparts
          exact Nat.lt_succ_of_lt (ih htail)

/-- A number takes at least one digit. -/
theorem decode_shortens {cs rest : List Char} {v : Int} (h : decode cs = some (v, rest)) :
    rest.length < cs.length := by
  obtain ⟨⟨n, tail⟩, htail, hparts⟩ := Option.map_eq_some_iff.mp h
  cases hparts
  exact decodeNat_shortens htail

/-- A number starts with a digit. -/
theorem exists_digit_of_encode (v : Int) : ∃ n cs, n < 64 ∧ encode v = digit n :: cs := by
  rw [encode, encodeNat]
  split
  · exact ⟨_, _, by omega, rfl⟩
  · exact ⟨_, _, by omega, rfl⟩

theorem digit_ne_semicolon {n : Nat} (h : n < 64) : digit n ≠ ';' := by
  have hdigits : ∀ n : Fin 64, digit n ≠ ';' := by decide +kernel
  exact hdigits ⟨n, h⟩

end StyleBundler.Vlq
