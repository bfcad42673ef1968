import Mathlib.Data.List.Forall2
import StyleBundler.Proofs.Asset.Store

/-!
Loads in a row. A load files what it gives and takes nothing out, so that after a row of loads
that all succeed each path leads to the asset that its own load gave (`loaded?_loadEach`). Each
such asset can be referenced (`Reachable.referenced?_reference`).
-/

namespace StyleBundler.AssetStore

variable {s : AssetStore} {t : FileTree} {f : Option ContentTransform}

theorem Reachable.load (hs : s.Reachable) (t : FileTree) (f : Option ContentTransform)
    (path : Path) : (s.load t f path).store.Reachable := by
  cases hloaded : s.loaded? path with
  | some a =>
      rw [load_of_loaded hloaded]
      exact hs.reserve path
  | none =>
      cases hfetch : fetch t f path with
      | error e =>
          rw [load_of_error hloaded hfetch]
          exact hs.reserve path
      | ok content =>
          rw [load_of_fetched hloaded hfetch, ← staging_reserve s path]
          exact (hs.reserve path).fill path content

theorem Reachable.reserveAll (hs : s.Reachable) (paths : List Path) :
    (s.reserveAll paths).Reachable := by
  induction paths generalizing s with
  | nil => exact hs
  | cons path paths ih => exact ih (hs.reserve path)

theorem loaded?_fill_reserve (s : AssetStore) (path : Path) (content : String) (q : Path) :
    ((s.reserve path).fill (.ofContent s.staging path content)).loaded? q =
      if path.Same q then some (.ofContent s.staging path content) else s.loaded? q := by
  obtain ⟨c, cell, hcell, hsame⟩ := exists_cell_reserve s path
  have hexists : ∃ cell ∈ (s.reserve path).cells,
      cell.path.Same (Asset.ofContent s.staging path content).path :=
    ⟨cell, List.mem_of_getElem? hcell, hsame⟩
  have hfill := loaded?_fill hexists q
  rw [loaded?_reserve] at hfill
  exact hfill

theorem loaded?_load {path : Path} {a : Asset} (h : s.loaded? path = some a) (t : FileTree)
    (f : Option ContentTransform) (q : Path) : (s.load t f q).store.loaded? path = some a := by
  cases hloaded : s.loaded? q with
  | some b => rw [load_of_loaded hloaded, loaded?_reserve, h]
  | none =>
      cases hfetch : fetch t f q with
      | error e => rw [load_of_error hloaded hfetch, loaded?_reserve, h]
      | ok content =>
          have hne : ¬q.Same path := by
            intro hsame
            rw [loaded?_congr s hsame, h] at hloaded
            cases hloaded
          rw [load_of_fetched hloaded hfetch, loaded?_fill_reserve, if_neg hne, h]

theorem loaded?_of_load_ok {path : Path} {a : Asset} (h : (s.load t f path).result = .ok a) :
    (s.load t f path).store.loaded? path = some a := by
  cases hloaded : s.loaded? path with
  | some b =>
      rw [load_of_loaded hloaded] at h ⊢
      rw [loaded?_reserve, hloaded]
      cases h
      rfl
  | none =>
      cases hfetch : fetch t f path with
      | error e =>
          rw [load_of_error hloaded hfetch] at h
          cases h
      | ok content =>
          rw [load_of_fetched hloaded hfetch] at h ⊢
          rw [loaded?_fill_reserve, if_pos (.refl path)]
          cases h
          rfl

theorem Reachable.loadEach (hs : s.Reachable) (t : FileTree) (f : Option ContentTransform)
    (paths : List Path) : (s.loadEach t f paths).store.Reachable := by
  induction paths generalizing s with
  | nil => exact hs
  | cons path paths ih =>
      have hfirst := hs.load t f path
      simp only [AssetStore.loadEach]
      split
      · exact hfirst
      · exact ih hfirst

theorem loaded?_loadEach_of_loaded {path : Path} {a : Asset} (h : s.loaded? path = some a)
    (t : FileTree) (f : Option ContentTransform) (paths : List Path) :
    (s.loadEach t f paths).store.loaded? path = some a := by
  induction paths generalizing s with
  | nil => exact h
  | cons q paths ih =>
      have hfirst := loaded?_load h t f q
      simp only [loadEach]
      split
      · exact hfirst
      · exact ih hfirst

/-- A row of loads that succeed files what each of them gives. -/
theorem loaded?_loadEach {paths : List Path} {assets : List Asset}
    (h : (s.loadEach t f paths).result = .ok assets) :
    List.Forall₂ (fun path a => (s.loadEach t f paths).store.loaded? path = some a) paths
      assets := by
  induction paths generalizing s assets with
  | nil =>
      cases h
      exact .nil
  | cons path paths ih =>
      cases hfirst : (s.load t f path).result with
      | error e =>
          simp only [loadEach, hfirst] at h
          cases h
      | ok a =>
          simp only [loadEach, hfirst] at h ⊢
          cases hrest : ((s.load t f path).store.loadEach t f paths).result with
          | error e =>
              rw [hrest] at h
              cases h
          | ok rest =>
              rw [hrest] at h
              cases h
              exact .cons (loaded?_loadEach_of_loaded (loaded?_of_load_ok hfirst) t f paths)
                (ih hrest)

theorem exists_loadEach {paths : List Path}
    (h : ∀ path ∈ paths, ∃ content, fetch t f path = .ok content) :
    ∃ assets, (s.loadEach t f paths).result = .ok assets := by
  induction paths generalizing s with
  | nil => exact ⟨[], rfl⟩
  | cons path paths ih =>
      have hfirst : ∃ a, (s.load t f path).result = .ok a := by
        cases hloaded : s.loaded? path with
        | some a => exact ⟨a, by rw [load_of_loaded hloaded]⟩
        | none =>
            obtain ⟨content, hfetch⟩ := h path List.mem_cons_self
            exact ⟨_, by rw [load_of_fetched hloaded hfetch]⟩
      obtain ⟨a, ha⟩ := hfirst
      obtain ⟨assets, hassets⟩ := ih (s := (s.load t f path).store)
        fun path hpath => h path (List.mem_cons_of_mem _ hpath)
      exact ⟨a :: assets, by simp only [loadEach, ha, hassets]; rfl⟩

theorem Reachable.cell_asset (hs : s.Reachable) {cell : AssetCell} (hcell : cell ∈ s.cells)
    {a : Asset} (h : cell.asset = some a) :
    a.name = Asset.nameOf s.staging (Digest.shortHashText a.content) ∧
      ∃ b, (a.name, b) ∈ s.index := by
  induction hs generalizing cell with
  | empty staging => cases hcell
  | @reserve s path _ ih =>
      rw [staging_reserve, index_reserve]
      unfold AssetStore.reserve at hcell
      split at hcell
      · exact ih hcell h
      · rcases List.mem_append.mp hcell with hcell | hcell
        · exact ih hcell h
        · rw [List.mem_singleton.mp hcell] at h
          cases h
  | @fill s path content _ ih =>
      obtain ⟨old, hold, rfl⟩ := List.mem_map.mp hcell
      split at h
      · cases h
        exact ⟨rfl, _, List.mem_cons_self⟩
      · obtain ⟨hname, b, hb⟩ := ih hold h
        refine ⟨hname, ?_⟩
        by_cases heq : a.name = (Asset.ofContent s.staging path content).name
        · exact ⟨_, List.mem_cons.mpr (.inl (Prod.ext heq rfl))⟩
        · exact ⟨b, List.mem_cons_of_mem _ (List.mem_filter.mpr ⟨hb, bne_iff_ne.mpr heq⟩)⟩

theorem mem_cells_of_loaded? {path : Path} {a : Asset} (h : s.loaded? path = some a) :
    ∃ cell ∈ s.cells, cell.asset = some a := by
  obtain ⟨cell, hfind, hasset⟩ := Option.bind_eq_some_iff.mp h
  exact ⟨cell, List.mem_of_find?_eq_some hfind, hasset⟩

/-- The reference to a loaded asset leads to an asset. -/
theorem Reachable.referenced?_reference (hs : s.Reachable) {path : Path} {a : Asset}
    (h : s.loaded? path = some a) : ∃ b, s.referenced? a.reference = some b := by
  obtain ⟨cell, hcell, hasset⟩ := mem_cells_of_loaded? h
  obtain ⟨-, b, hb⟩ := hs.cell_asset hcell hasset
  rw [referenced?, Asset.nameIn_reference, ← Option.isSome_iff_exists]
  rw [Option.isSome_iff_ne_none]
  intro hnone
  exact bne_iff_ne.mp (List.lookup_eq_none_iff.mp hnone _ hb) rfl

theorem Reachable.isNameChar_of_loaded? (hs : s.Reachable) {path : Path} {a : Asset}
    (h : s.loaded? path = some a) : ∀ c ∈ a.name.toList, Asset.isNameChar c = true := by
  obtain ⟨cell, hcell, hasset⟩ := mem_cells_of_loaded? h
  rw [(hs.cell_asset hcell hasset).1]
  exact Asset.isNameChar_nameOf _ _

end StyleBundler.AssetStore
