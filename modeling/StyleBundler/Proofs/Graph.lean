import Mathlib.Data.List.Forall2
import Mathlib.Data.List.Induction
import Mathlib.Data.List.Nodup
import StyleBundler.Graph

/-!
The order of dependencies goes by what the modules are and not by their numbers. Where two graphs
correspond along a relation of numbers (`Correspondence`), walks from related modules meet related
modules and finish with them in the same order (`Correspondence.dependencyOrder`), as long as both
walks are deep enough for their own graph.
-/

namespace StyleBundler

/-! Values where they first come up -/

theorem eraseDups_concat {α : Type} [BEq α] [LawfulBEq α] (xs : List α) (a : α) :
    (xs ++ [a]).eraseDups = if a ∈ xs then xs.eraseDups else xs.eraseDups ++ [a] := by
  rw [List.eraseDups_append]
  split
  · next h => simp [List.removeAll, h]
  · next h => simp [List.removeAll, h, List.eraseDups_cons]

theorem nodup_eraseDups {α : Type} [BEq α] [LawfulBEq α] (xs : List α) :
    xs.eraseDups.Nodup := by
  induction xs using List.reverseRecOn with
  | nil => exact .nil
  | append_singleton xs a ih =>
      rw [eraseDups_concat]
      split
      · exact ih
      · next h =>
          refine List.nodup_append.mpr ⟨ih, List.nodup_singleton a, ?_⟩
          rintro x hx b hb rfl
          exact h (List.mem_singleton.mp hb ▸ List.mem_eraseDups.mp hx)

namespace ModuleGraph

/-- Related numbers belong to modules of the two graphs, each has one partner, and the modules
depend on related ones in the same order. -/
structure Correspondence (g g' : ModuleGraph) (R : Nat → Nat → Prop) : Prop where
  inRange : ∀ {i i'}, R i i' → i < g.size ∧ i' < g'.size
  unique : ∀ {i i' j j'}, R i i' → R j j' → (i = j ↔ i' = j')
  dependencies : ∀ {i i'}, R i i' → List.Forall₂ R (g.dependencies i) (g'.dependencies i')

/-- Walks that have met related modules, each once, and finished with related ones. -/
structure Walk.Related (R : Nat → Nat → Prop) (w w' : Walk) : Prop where
  visited : List.Forall₂ R w.visited w'.visited
  order : List.Forall₂ R w.order w'.order
  nodup : w.visited.Nodup
  nodup' : w'.visited.Nodup

/-- The modules that a walk has not met are fewer than the chains it can still follow are long. -/
def Suffices (g : ModuleGraph) (depth : Nat) (w : Walk) : Prop :=
  g.size < depth + w.visited.length

variable {g g' : ModuleGraph} {R : Nat → Nat → Prop} {w w' : Walk} {i i' depth depth' : Nat}

theorem length_le_size {xs : List Nat} (hnodup : xs.Nodup) (h : ∀ i ∈ xs, i < g.size) :
    xs.length ≤ g.size := by
  have hsub : xs ⊆ List.range g.size := fun i hi => List.mem_range.mpr (h i hi)
  simpa using hnodup.length_le_of_subset hsub

namespace Correspondence

theorem mem_iff (h : Correspondence g g' R) {xs xs' : List Nat} (hxs : List.Forall₂ R xs xs')
    (hi : R i i') : i ∈ xs ↔ i' ∈ xs' := by
  induction hxs with
  | nil => simp
  | cons hx _ ih => rw [List.mem_cons, List.mem_cons, ih, h.unique hi hx]

theorem inRange_of_forall₂ (h : Correspondence g g' R) {xs xs' : List Nat}
    (hxs : List.Forall₂ R xs xs') : (∀ i ∈ xs, i < g.size) ∧ ∀ i ∈ xs', i < g'.size := by
  induction hxs with
  | nil => simp
  | cons hx _ ih =>
      rw [List.forall_mem_cons, List.forall_mem_cons]
      exact ⟨⟨(h.inRange hx).1, ih.1⟩, (h.inRange hx).2, ih.2⟩

/-- A walk that has no depth left has met every module. -/
theorem pos_of_suffices (h : Correspondence g g' R) (hw : w.Related R w')
    (hdepth : g.Suffices depth w) (hdepth' : g'.Suffices depth' w') : 0 < depth ∧ 0 < depth' := by
  obtain ⟨hbound, hbound'⟩ := h.inRange_of_forall₂ hw.visited
  have hlength := length_le_size hw.nodup hbound
  have hlength' := length_le_size hw.nodup' hbound'
  unfold Suffices at hdepth hdepth'
  omega

/-- Visits of related modules in turn, given that each of them goes on with related walks. -/
theorem foldl_visit {v v' : Walk → Nat → Walk} {ds ds' : List Nat} (hds : List.Forall₂ R ds ds')
    (hv : ∀ {w w' i i'}, R i i' → w.Related R w' → g.Suffices depth w → g'.Suffices depth' w' →
      (v w i).Related R (v' w' i') ∧ w.visited.length ≤ (v w i).visited.length)
    (hw : w.Related R w') (hdepth : g.Suffices depth w) (hdepth' : g'.Suffices depth' w') :
    (ds.foldl v w).Related R (ds'.foldl v' w') ∧
      w.visited.length ≤ (ds.foldl v w).visited.length := by
  induction hds generalizing w w' with
  | nil => exact ⟨hw, Nat.le_refl _⟩
  | cons hd _ ih =>
      obtain ⟨hnext, hgrown⟩ := hv hd hw hdepth hdepth'
      have hlength := hw.visited.length_eq
      have hlength' := hnext.visited.length_eq
      unfold Suffices at hdepth hdepth'
      obtain ⟨hrest, hmore⟩ := ih hnext (by unfold Suffices; omega) (by unfold Suffices; omega)
      exact ⟨hrest, Nat.le_trans hgrown hmore⟩

theorem visit (h : Correspondence g g' R) (hi : R i i') (hw : w.Related R w')
    (hdepth : g.Suffices depth w) (hdepth' : g'.Suffices depth' w') :
    (g.visit depth w i).Related R (g'.visit depth' w' i') ∧
      w.visited.length ≤ (g.visit depth w i).visited.length := by
  induction depth generalizing depth' w w' i i' with
  | zero => exact absurd (h.pos_of_suffices hw hdepth hdepth').1 (Nat.lt_irrefl 0)
  | succ depth ih =>
      obtain ⟨depth', rfl⟩ := Nat.exists_eq_add_of_lt (h.pos_of_suffices hw hdepth hdepth').2
      rw [Nat.zero_add] at hdepth' ⊢
      have hmem := h.mem_iff hw.visited hi
      simp only [ModuleGraph.visit, List.contains_iff_mem]
      by_cases hseen : i ∈ w.visited
      · rw [if_pos hseen, if_pos (hmem.mp hseen)]
        exact ⟨hw, Nat.le_refl _⟩
      · rw [if_neg hseen, if_neg (mt hmem.mpr hseen)]
        have hentered : Walk.Related R ⟨i :: w.visited, w.order⟩ ⟨i' :: w'.visited, w'.order⟩ :=
          ⟨.cons hi hw.visited, hw.order, hw.nodup.cons hseen,
            hw.nodup'.cons (mt hmem.mpr hseen)⟩
        have hinner : g.Suffices depth ⟨i :: w.visited, w.order⟩ := by
          simp only [Suffices, List.length_cons] at hdepth ⊢
          omega
        have hinner' : g'.Suffices depth' ⟨i' :: w'.visited, w'.order⟩ := by
          simp only [Suffices, List.length_cons] at hdepth' ⊢
          omega
        obtain ⟨hinner, hgrown⟩ := foldl_visit (h.dependencies hi) ih hentered hinner hinner'
        exact ⟨⟨hinner.visited, List.rel_append hinner.order (.cons hi .nil), hinner.nodup,
          hinner.nodup'⟩, Nat.le_trans (Nat.le_succ _) hgrown⟩

/-- Related modules reach related ones, in the same order. -/
theorem dependencyOrder (h : Correspondence g g' R) (hi : R i i') :
    List.Forall₂ R (g.dependencyOrder i) (g'.dependencyOrder i') := by
  have hstart : Walk.Related R ⟨[], []⟩ ⟨[], []⟩ := ⟨.nil, .nil, .nil, .nil⟩
  exact (h.visit hi hstart (by simp [Suffices]) (by simp [Suffices])).1.order

end Correspondence

end ModuleGraph

end StyleBundler
