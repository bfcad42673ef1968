import StyleBundler.Edit

/-!
Edits applied to a source: which edits a series of calls collects, when they apply, and that
edits that apply keep apart.
-/

namespace StyleBundler.Edits

/-- Overwriting one part after the other collects one edit each, in order. -/
theorem foldl_overwrite {α : Type} (parts : List α) (span : α → Span) (text : α → String)
    (s : Edits) :
    parts.foldl (fun s p => s.overwrite (span p) (text p)) s =
      { s with edits := s.edits ++ parts.map fun p => ⟨span p, text p⟩ } := by
  induction parts generalizing s with
  | nil => simp
  | cons p parts ih =>
      rw [List.foldl_cons, ih]
      simp [overwrite]

/-- Edits that are collected in their order apply when they fit and keep apart. -/
theorem exists_applyText {s : Edits} {source : String}
    (hsorted : s.edits.Pairwise fun a b => Edit.precedes a b = true)
    (hfit : firstError? 0 source.toList 0 s.edits = none) :
    ∃ code, s.applyText source = .ok code := by
  rw [applyText, apply]
  split
  · exact ⟨source, rfl⟩
  · simp only [List.mergeSort_of_pairwise hsorted, hfit]
    exact ⟨_, rfl⟩

/-- Edits that pass the check come one behind the other. -/
theorem pairwise_of_firstError? {cursor last : Nat} {rest : List Char} {es : List Edit}
    (h : firstError? cursor rest last es = none) :
    (∀ e ∈ es, last ≤ e.span.start) ∧ es.Pairwise fun a b => a.span.stop ≤ b.span.start := by
  induction es generalizing cursor rest last with
  | nil => exact ⟨nofun, .nil⟩
  | cons e es ih =>
      simp only [firstError?] at h
      cases hplace : e.place? cursor rest with
      | none =>
          rw [hplace] at h
          cases h
      | some tail =>
          simp only [hplace] at h
          split at h
          · cases h
          · next hlast =>
              obtain ⟨hbehind, hpairwise⟩ := ih h
              have hle : e.span.start ≤ e.span.stop := by
                unfold Edit.place? at hplace
                split at hplace
                · assumption
                · cases hplace
              refine ⟨?_, List.pairwise_cons.mpr ⟨hbehind, hpairwise⟩⟩
              intro e' he'
              rcases List.mem_cons.mp he' with rfl | he'
              · exact Nat.le_of_not_lt hlast
              · have := hbehind e' he'
                omega

theorem firstError?_map_span (cursor last : Nat) (rest : List Char) (es : List Edit) :
    firstError? cursor rest last (es.map fun e => ⟨e.span, ""⟩) =
      firstError? cursor rest last es := by
  induction es generalizing cursor last rest with
  | nil => rfl
  | cons e es ih =>
      have hplace : Edit.place? cursor rest ⟨e.span, ""⟩ = e.place? cursor rest := rfl
      simp only [List.map_cons, firstError?, hplace, ih]

theorem apply_eq_some {s : Edits} {source : List Char} {r : EditedText}
    (h : s.apply source = .ok (some r)) :
    firstError? 0 source 0 (s.edits.mergeSort Edit.precedes) = none ∧
      r = ⟨(String.join s.front).toList, patches 0 source (s.edits.mergeSort Edit.precedes)⟩ := by
  unfold apply at h
  split at h
  · cases h
  · dsimp only at h
    split at h
    · cases h
    · next hnone =>
        cases h
        exact ⟨hnone, rfl⟩

end StyleBundler.Edits
