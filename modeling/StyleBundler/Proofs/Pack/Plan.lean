import StyleBundler.Pack.Plan
import StyleBundler.Proofs.Asset.Store

/-!
Plans of scanned units: each entry leads to an asset of the store, and the first
entries for each reference stand for all others.
-/

namespace StyleBundler.Plan

/-- An entry is made only for a reference that the store knows. -/
theorem exists_referenced_of_importOf? {store : AssetStore} {n : Script.ImportNode}
    {e : PlannedImport} (h : importOf? store n = some e) :
    ∃ a, store.referenced? e.reference = some a := by
  cases n with
  | declaration d =>
      simp only [importOf?] at h
      split at h
      · next hd =>
          cases h
          exact Option.isSome_iff_exists.mp (Bool.and_eq_true_iff.mp hd).2
      · cases h
  | call c =>
      simp only [importOf?] at h
      split at h
      · split at h
        · next href =>
            cases h
            exact Option.isSome_iff_exists.mp href
        · cases h
      · cases h

theorem exists_referenced {store : AssetStore} {code : String} {e : PlannedImport}
    (h : e ∈ scan store code) : ∃ a, store.referenced? e.reference = some a := by
  obtain ⟨n, -, hn⟩ := List.mem_filterMap.mp h
  exact exists_referenced_of_importOf? hn

theorem mem_of_mem_uniqueFrom {seen : List String} {p : Plan} {e : PlannedImport}
    (h : e ∈ uniqueFrom seen p) : e ∈ p := by
  induction p generalizing seen with
  | nil => exact h
  | cons d p ih =>
      simp only [uniqueFrom] at h
      split at h
      · exact List.mem_cons_of_mem _ (ih h)
      · rcases List.mem_cons.mp h with rfl | h
        · exact List.mem_cons_self
        · exact List.mem_cons_of_mem _ (ih h)

theorem mem_of_mem_unique {p : Plan} {e : PlannedImport} (h : e ∈ unique p) : e ∈ p :=
  mem_of_mem_uniqueFrom h

/-- A reference that was not seen has an entry among the first ones. -/
theorem exists_mem_uniqueFrom {seen : List String} {p : Plan} {e : PlannedImport} (h : e ∈ p)
    (hseen : e.reference ∉ seen) : ∃ d ∈ uniqueFrom seen p, d.reference = e.reference := by
  induction p generalizing seen with
  | nil => cases h
  | cons d p ih =>
      simp only [uniqueFrom]
      by_cases hd : d.reference = e.reference
      · rw [if_neg (by simpa [hd] using hseen)]
        exact ⟨d, List.mem_cons_self, hd⟩
      · have hp : e ∈ p := by
          rcases List.mem_cons.mp h with rfl | hp
          · exact absurd rfl hd
          · exact hp
        split
        · exact ih hp hseen
        · have hseen' : e.reference ∉ d.reference :: seen := by
            simpa [Ne.symm hd] using hseen
          obtain ⟨f, hf, href⟩ := ih hp hseen'
          exact ⟨f, List.mem_cons_of_mem _ hf, href⟩

theorem exists_mem_unique {p : Plan} {e : PlannedImport} (h : e ∈ p) :
    ∃ d ∈ unique p, d.reference = e.reference :=
  exists_mem_uniqueFrom h List.not_mem_nil

end StyleBundler.Plan
