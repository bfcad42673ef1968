import StyleBundler.Span

/-!
Cuts and slices as ways to split a text. A cut gives the two parts that make up the text
(`cut?_eq_some_iff`), and a slice is there exactly between two boundaries of characters
(`isSome_slice?_iff`).
-/

namespace StyleBundler.Text

theorem byteLength_pos {cs : List Char} (h : cs ≠ []) : 0 < byteLength cs := by
  cases cs with
  | nil => exact absurd rfl h
  | cons c cs =>
      have := Char.utf8Size_pos c
      rw [byteLength_cons]
      omega

/-- A character starts at that byte, or the text ends there. -/
def IsBoundary (cs : List Char) (n : Nat) : Prop := ∃ a b, cs = a ++ b ∧ byteLength a = n

theorem cut?_eq_some_iff {n : Nat} {cs a b : List Char} :
    cut? n cs = some (a, b) ↔ cs = a ++ b ∧ byteLength a = n := by
  constructor
  · intro h
    induction cs generalizing n a with
    | nil =>
        simp only [cut?] at h
        split at h
        · next hn =>
            cases h
            exact ⟨rfl, hn.symm⟩
        · cases h
    | cons c cs ih =>
        simp only [cut?] at h
        split at h
        · next hn =>
            cases h
            exact ⟨rfl, hn.symm⟩
        · split at h
          · next hc =>
              obtain ⟨⟨a', b'⟩, hcut, hparts⟩ := Option.map_eq_some_iff.mp h
              cases hparts
              obtain ⟨rfl, ha⟩ := ih hcut
              exact ⟨rfl, by simp only [byteLength_cons]; omega⟩
          · cases h
  · rintro ⟨rfl, rfl⟩
    exact cut?_append a b

/-- Two splits of a text in one place are the same. -/
theorem append_inj_of_byteLength {a b a' b' : List Char} (h : a ++ b = a' ++ b')
    (hlen : byteLength a = byteLength a') : a = a' ∧ b = b' := by
  have hcut : cut? (byteLength a) (a ++ b) = some (a', b') :=
    cut?_eq_some_iff.mpr ⟨h, hlen.symm⟩
  rw [cut?_append] at hcut
  cases hcut
  exact ⟨rfl, rfl⟩

/-- Two splits of a text, the first one in front of the second. -/
theorem exists_middle {a b a' b' : List Char} (h : a ++ b = a' ++ b')
    (hlen : byteLength a ≤ byteLength a') : ∃ d, a' = a ++ d ∧ b = d ++ b' := by
  rcases List.append_eq_append_iff.mp h with ⟨d, rfl, rfl⟩ | ⟨d, rfl, rfl⟩
  · exact ⟨d, rfl, rfl⟩
  · rw [byteLength_append] at hlen
    cases d with
    | nil => exact ⟨[], by simp, by simp⟩
    | cons c d =>
        have := Char.utf8Size_pos c
        rw [byteLength_cons] at hlen
        omega

theorem slice?_eq_some_iff {cs part : List Char} {s : Span} :
    slice? cs s = some part ↔
      ∃ a b, cs = a ++ (part ++ b) ∧ byteLength a = s.start ∧
        s.start + byteLength part = s.stop := by
  simp only [slice?, Option.bind_eq_bind]
  split
  · next hle =>
      simp only [Option.bind_eq_some_iff, Prod.exists, Option.some.injEq]
      constructor
      · rintro ⟨a, tail, hstart, part', b, hstop, rfl⟩
        obtain ⟨rfl, ha⟩ := cut?_eq_some_iff.mp hstart
        obtain ⟨rfl, hpart⟩ := cut?_eq_some_iff.mp hstop
        exact ⟨a, b, rfl, ha, by omega⟩
      · rintro ⟨a, b, rfl, ha, hpart⟩
        exact ⟨a, part ++ b, cut?_eq_some_iff.mpr ⟨rfl, ha⟩, part, b,
          cut?_eq_some_iff.mpr ⟨rfl, by omega⟩, rfl⟩
  · next hle =>
      simp only [reduceCtorEq, false_iff]
      rintro ⟨a, b, -, -, hpart⟩
      omega

theorem isSome_slice?_iff {cs : List Char} {s : Span} :
    (slice? cs s).isSome = true ↔
      s.start ≤ s.stop ∧ IsBoundary cs s.start ∧ IsBoundary cs s.stop := by
  rw [Option.isSome_iff_exists]
  constructor
  · rintro ⟨part, h⟩
    obtain ⟨a, b, rfl, ha, hpart⟩ := slice?_eq_some_iff.mp h
    refine ⟨by omega, ⟨a, _, rfl, ha⟩, ⟨a ++ part, b, by simp, ?_⟩⟩
    rw [byteLength_append]
    omega
  · rintro ⟨hle, ⟨a, b, rfl, ha⟩, ⟨a', b', hcs, ha'⟩⟩
    obtain ⟨d, rfl, rfl⟩ := exists_middle hcs (by omega)
    rw [byteLength_append] at ha'
    exact ⟨d, slice?_eq_some_iff.mpr ⟨a, b', rfl, ha, by omega⟩⟩

end StyleBundler.Text
