import StyleBundler.Asset.Store
import StyleBundler.Proofs.Asset.Name

/-!
The stores of a build. A store grows by cells and by assets that are filed, and nothing
is ever taken out: each asset in it is named by its content, and a cell that is filled
keeps its asset's name in the index.
-/

namespace StyleBundler

theorem Path.Same.refl (p : Path) : p.Same p := Eq.refl _

theorem Path.Same.symm {p q : Path} (h : p.Same q) : q.Same p := Eq.symm h

theorem Path.Same.trans {p q r : Path} (h : p.Same q) (h' : q.Same r) : p.Same r := Eq.trans h h'

namespace AssetStore

/-- The stores that loads lead to, in whatever order their steps are taken. -/
inductive Reachable : AssetStore → Prop
  | empty (staging : Bool) : Reachable (.empty staging)
  | reserve {s : AssetStore} (path : Path) : Reachable s → Reachable (s.reserve path)
  | fill {s : AssetStore} (path : Path) (content : String) :
      Reachable s → Reachable (s.fill (.ofContent s.staging path content))

/-- The assets that a reference can lead to. -/
def assets (s : AssetStore) : List Asset := s.index.map (·.2)

@[simp] theorem staging_reserve (s : AssetStore) (path : Path) :
    (s.reserve path).staging = s.staging := by
  unfold reserve
  split <;> rfl

@[simp] theorem index_reserve (s : AssetStore) (path : Path) :
    (s.reserve path).index = s.index := by
  unfold reserve
  split <;> rfl

theorem mem_index_fill {s : AssetStore} {a : Asset} {entry : String × Asset}
    (h : entry ∈ (s.fill a).index) : entry = (a.name, a) ∨ entry ∈ s.index := by
  simp only [fill, List.mem_cons, List.mem_filter] at h
  exact h.imp_right And.left

/-- Every asset of the index is named by its content, and filed under its name. -/
theorem Reachable.eq_ofContent {s : AssetStore} (hs : s.Reachable) {entry : String × Asset}
    (h : entry ∈ s.index) :
    entry.1 = entry.2.name ∧
      entry.2 = .ofContent s.staging entry.2.path entry.2.content := by
  induction hs with
  | empty staging => cases h
  | reserve path _ ih =>
      rw [index_reserve] at h
      rw [staging_reserve]
      exact ih h
  | fill path content _ ih =>
      rcases mem_index_fill h with rfl | h
      · exact ⟨rfl, rfl⟩
      · exact ih h

theorem mem_index_of_referenced {s : AssetStore} {reference : String} {a : Asset}
    (h : s.referenced? reference = some a) : (Asset.nameIn reference, a) ∈ s.index := by
  rw [referenced?, List.lookup_eq_some_iff] at h
  obtain ⟨l₁, l₂, hindex, -⟩ := h
  simp [hindex]

theorem mem_assets_of_referenced {s : AssetStore} {reference : String} {a : Asset}
    (h : s.referenced? reference = some a) : a ∈ s.assets :=
  List.mem_map_of_mem (mem_index_of_referenced h)

/-- A reference that leads to an asset spells the name of that asset. -/
theorem Reachable.nameIn_eq {s : AssetStore} (hs : s.Reachable) {reference : String} {a : Asset}
    (h : s.referenced? reference = some a) : Asset.nameIn reference = a.name :=
  (hs.eq_ofContent (mem_index_of_referenced h)).1

theorem Reachable.name_eq {s : AssetStore} (hs : s.Reachable) {a : Asset} (h : a ∈ s.assets) :
    a.name = Asset.nameOf s.staging (Digest.shortHashText a.content) := by
  obtain ⟨entry, hentry, rfl⟩ := List.mem_map.mp h
  exact congrArg Asset.name (hs.eq_ofContent hentry).2

theorem Reachable.isNameChar {s : AssetStore} (hs : s.Reachable) {a : Asset} (h : a ∈ s.assets) :
    ∀ c ∈ a.name.toList, Asset.isNameChar c = true := by
  rw [hs.name_eq h]
  exact Asset.isNameChar_nameOf _ _

/-- The asset in a cell. -/
def assetAt? (s : AssetStore) (c : Nat) : Option Asset := s.cells[c]?.bind AssetCell.asset

theorem cells_reserve {s : AssetStore} {c : Nat} {cell : AssetCell} (h : s.cells[c]? = some cell)
    (path : Path) : (s.reserve path).cells[c]? = some cell := by
  unfold reserve
  split
  · exact h
  · obtain ⟨hc, -⟩ := List.getElem?_eq_some_iff.mp h
    rw [List.getElem?_append_left hc, h]

theorem exists_cell_reserve (s : AssetStore) (path : Path) :
    ∃ (c : Nat) (cell : AssetCell),
      (s.reserve path).cells[c]? = some cell ∧ cell.path.Same path := by
  unfold reserve
  split
  · next hany =>
      obtain ⟨cell, hcell, hsame⟩ := List.any_eq_true.mp hany
      obtain ⟨c, hc⟩ := List.getElem?_of_mem hcell
      exact ⟨c, cell, hc, of_decide_eq_true hsame⟩
  · exact ⟨s.cells.length, ⟨path, none⟩, List.getElem?_concat_length, rfl⟩

theorem assetAt?_reserve (s : AssetStore) (path : Path) (c : Nat) :
    (s.reserve path).assetAt? c = s.assetAt? c := by
  unfold reserve
  split
  · rfl
  · rw [assetAt?, assetAt?, List.getElem?_append]
    split
    · rfl
    · next hc =>
        rw [List.getElem?_eq_none (Nat.le_of_not_lt hc), List.getElem?_singleton]
        split <;> rfl

@[simp] theorem loaded?_reserve (s : AssetStore) (path q : Path) :
    (s.reserve path).loaded? q = s.loaded? q := by
  unfold reserve
  split
  · rfl
  · simp only [loaded?, List.find?_append, List.find?_singleton]
    cases s.cells.find? fun cell => cell.path.Same q with
    | some cell => rfl
    | none =>
        simp only [Option.none_or]
        split <;> rfl

/-- The cells of different paths. -/
def Distinct (s : AssetStore) : Prop := s.cells.Pairwise fun a b => ¬a.path.Same b.path

theorem Reachable.distinct {s : AssetStore} (hs : s.Reachable) : s.Distinct := by
  induction hs with
  | empty staging => exact List.Pairwise.nil
  | @reserve s path _ ih =>
      unfold Distinct AssetStore.reserve
      split
      · exact ih
      · next hany =>
          refine List.pairwise_append.mpr ⟨ih, List.pairwise_singleton _ _, ?_⟩
          intro cell hcell new hnew hsame
          rw [List.mem_singleton.mp hnew] at hsame
          exact hany (List.any_eq_true.mpr ⟨cell, hcell, decide_eq_true hsame⟩)
  | fill path content _ ih =>
      refine List.pairwise_map.mpr (ih.imp ?_)
      intro a b hab
      simpa only [apply_ite AssetCell.path, ite_self] using hab

theorem Distinct.place_eq {s : AssetStore} (hs : s.Distinct) {c d : Nat} {a b : AssetCell}
    (ha : s.cells[c]? = some a) (hb : s.cells[d]? = some b) (h : a.path.Same b.path) : c = d := by
  obtain ⟨hc, rfl⟩ := List.getElem?_eq_some_iff.mp ha
  obtain ⟨hd, rfl⟩ := List.getElem?_eq_some_iff.mp hb
  rcases Nat.lt_trichotomy c d with hlt | heq | hgt
  · exact absurd h (List.pairwise_iff_getElem.mp hs c d hc hd hlt)
  · exact heq
  · exact absurd h.symm (List.pairwise_iff_getElem.mp hs d c hd hc hgt)

theorem Distinct.loaded?_eq {s : AssetStore} (hs : s.Distinct) {c : Nat} {cell : AssetCell}
    {path : Path} (hcell : s.cells[c]? = some cell) (h : cell.path.Same path) :
    s.loaded? path = cell.asset := by
  cases hfind : s.cells.find? fun cell => cell.path.Same path with
  | none =>
      have := List.find?_eq_none.mp hfind cell (List.mem_of_getElem? hcell)
      exact absurd (decide_eq_true h) this
  | some found =>
      obtain ⟨d, hd⟩ := List.getElem?_of_mem (List.mem_of_find?_eq_some hfind)
      have hsame : found.path.Same path := by simpa using List.find?_some hfind
      have hplace := hs.place_eq hd hcell (hsame.trans h.symm)
      subst hplace
      rw [hcell, Option.some.injEq] at hd
      rw [loaded?, hfind, hd, Option.bind_some]

theorem loaded?_congr (s : AssetStore) {p q : Path} (h : p.Same q) :
    s.loaded? p = s.loaded? q := by
  have hsame : ∀ r : Path, r.Same p ↔ r.Same q := fun r => ⟨(·.trans h), (·.trans h.symm)⟩
  simp only [loaded?, hsame]

/-- Filling a path that has a cell loads that path and no other. -/
theorem loaded?_fill {s : AssetStore} {a : Asset}
    (h : ∃ cell ∈ s.cells, cell.path.Same a.path) (q : Path) :
    (s.fill a).loaded? q = if a.path.Same q then some a else s.loaded? q := by
  simp only [loaded?, fill, List.find?_map]
  have hpath : ((fun cell : AssetCell => decide (cell.path.Same q)) ∘
      fun cell : AssetCell => if cell.path.Same a.path then { cell with asset := some a } else cell) =
      fun cell => decide (cell.path.Same q) := by
    funext cell
    simp only [Function.comp_apply, apply_ite AssetCell.path, ite_self]
  rw [hpath]
  cases hfind : s.cells.find? fun cell => cell.path.Same q with
  | none =>
      have hne : ¬a.path.Same q := by
        intro hq
        obtain ⟨cell, hcell, hsame⟩ := h
        exact List.find?_eq_none.mp hfind cell hcell (decide_eq_true (hsame.trans hq))
      rw [if_neg hne]
      rfl
  | some cell =>
      have hsame : cell.path.Same q := by simpa using List.find?_some hfind
      by_cases hq : a.path.Same q
      · rw [if_pos hq, Option.map_some, Option.bind_some, if_pos (hsame.trans hq.symm)]
      · have hcell : ¬cell.path.Same a.path := fun h => hq (h.symm.trans hsame)
        rw [if_neg hq, Option.map_some, Option.bind_some, Option.bind_some, if_neg hcell]

theorem load_of_loaded {s : AssetStore} {path : Path} {a : Asset} (h : s.loaded? path = some a)
    (t : FileTree) (f : Option ContentTransform) :
    s.load t f path = ⟨.ok a, s.reserve path, [], 0⟩ := by
  simp only [load, loaded?_reserve, h]

theorem load_of_error {s : AssetStore} {t : FileTree} {f : Option ContentTransform} {path : Path}
    {e : StyleError} (h : s.loaded? path = none) (hfetch : fetch t f path = .error e) :
    s.load t f path = ⟨.error e, s.reserve path, [], fetchRuns t f path⟩ := by
  simp only [load, loaded?_reserve, h, hfetch]

theorem load_of_fetched {s : AssetStore} {t : FileTree} {f : Option ContentTransform}
    {path : Path} {content : String} (h : s.loaded? path = none)
    (hfetch : fetch t f path = .ok content) :
    s.load t f path =
      ⟨.ok (.ofContent s.staging path content),
        (s.reserve path).fill (.ofContent s.staging path content),
        [.ofContent s.staging path content], fetchRuns t f path⟩ := by
  simp only [load, loaded?_reserve, staging_reserve, h, hfetch]

theorem cells_fill {s : AssetStore} {c : Nat} {cell : AssetCell} (h : s.cells[c]? = some cell)
    (a : Asset) :
    (s.fill a).cells[c]? =
      some (if cell.path.Same a.path then { cell with asset := some a } else cell) := by
  rw [fill, List.getElem?_map, h, Option.map_some]

end AssetStore
end StyleBundler
