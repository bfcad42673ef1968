import StyleBundler.Proofs.Hook.Redirected
import StyleBundler.Proofs.Output
import StyleBundler.Proofs.Path

/-!
What a build has published while its files stay as they are. Everything published is the content
that its path leads to, under the name that goes with it; the store files nothing else, and the
bundle holds nothing else (`Agree`). So each stylesheet that a module imports becomes the asset
that its specifier alone gives (`assetFor`), and a module becomes what its own code and path give
(`rewriting`), whatever was loaded before.
-/

namespace StyleBundler

namespace Asset

theorem nameOf_inj {staging : Bool} {hash hash' : String} :
    nameOf staging hash = nameOf staging hash' ↔ hash = hash' := by
  refine ⟨fun h => ?_, fun h => h ▸ rfl⟩
  have hchars := congrArg String.toList h
  simp only [nameOf, String.toList_append, List.append_assoc, List.append_cancel_left_eq,
    List.append_cancel_right_eq] at hchars
  exact String.toList_injective hchars

/-- No two contents that differ have the same hash. -/
def ContentsApart (assets : List Asset) : Prop :=
  ∀ a ∈ assets, ∀ b ∈ assets,
    Digest.shortHashText a.content = Digest.shortHashText b.content → a.content = b.content

instance (assets : List Asset) : Decidable (ContentsApart assets) :=
  inferInstanceAs (Decidable (∀ a ∈ assets, ∀ b ∈ assets, _ → _))

end Asset

namespace AssetStore

/-- Files an asset under its name. -/
def file (s : AssetStore) (a : Asset) : AssetStore :=
  { s with index := (a.name, a) :: s.index.filter (·.1 != a.name) }

/-- Files an asset in the cell of its path. -/
def settle (s : AssetStore) (a : Asset) : AssetStore :=
  { s with
    cells := s.cells.map fun cell =>
      if cell.path.Same a.path then { cell with asset := some a } else cell }

theorem fill_eq (s : AssetStore) (a : Asset) : s.fill a = (s.file a).settle a := rfl

/-- The path has been requested. -/
def HasCell (s : AssetStore) (path : Path) : Prop := ∃ cell ∈ s.cells, cell.path.Same path

variable {s : AssetStore} {a : Asset} {path : Path}

theorem hasCell_reserve (s : AssetStore) (path : Path) : (s.reserve path).HasCell path := by
  obtain ⟨c, cell, hcell, hsame⟩ := exists_cell_reserve s path
  exact ⟨cell, List.mem_of_getElem? hcell, hsame⟩

theorem HasCell.reserve (h : s.HasCell path) (q : Path) : (s.reserve q).HasCell path := by
  obtain ⟨cell, hcell, hsame⟩ := h
  obtain ⟨c, hc⟩ := List.getElem?_of_mem hcell
  exact ⟨cell, List.mem_of_getElem? (cells_reserve hc q), hsame⟩

theorem HasCell.settle (h : s.HasCell path) (a : Asset) : (s.settle a).HasCell path := by
  obtain ⟨cell, hcell, hsame⟩ := h
  refine ⟨_, List.mem_map_of_mem hcell, ?_⟩
  rwa [apply_ite AssetCell.path, ite_self]

theorem loaded?_settle (h : s.HasCell a.path) (q : Path) :
    (s.settle a).loaded? q = if a.path.Same q then some a else s.loaded? q :=
  loaded?_fill h q

theorem lookup_file (s : AssetStore) (a : Asset) (name : String) :
    (s.file a).index.lookup name = if name = a.name then some a else s.index.lookup name := by
  rw [file, Listing.lookup_cons]
  split
  · rfl
  · next hname =>
      induction s.index with
      | nil => rfl
      | cons entry index ih =>
          obtain ⟨other, b⟩ := entry
          rw [List.filter_cons]
          split
          · rw [Listing.lookup_cons, Listing.lookup_cons, ih]
          · next hother =>
              have heq : other = a.name := by simpa using hother
              rw [ih, Listing.lookup_cons, if_neg (heq ▸ hname)]

end AssetStore

namespace Hook

open Import AssetStore

variable {t : FileTree} {o : StyleOptions} {assets : List Asset} {store : AssetStore}
  {bundle : OutputBundle} {path : Path} {a : Asset}

/-- An asset that the stylesheet of some specifier gives. -/
structure Published (t : FileTree) (o : StyleOptions) (a : Asset) : Prop where
  resolved : ∃ specifier importer, Resolve.stylesheet t specifier importer = .ok a.path
  fetched : fetch t o.transform a.path = .ok a.content
  named : a = .ofContent o.bundle.isSome a.path a.content

namespace Published

theorem ofContent {specifier content : String} {importer : Path}
    (hresolve : Resolve.stylesheet t specifier importer = .ok path)
    (hfetch : fetch t o.transform path = .ok content) :
    Published t o (.ofContent o.bundle.isSome path content) :=
  ⟨⟨specifier, importer, hresolve⟩, hfetch, rfl⟩

theorem name_eq (h : Published t o a) :
    a.name = Asset.nameOf o.bundle.isSome (Digest.shortHashText a.content) :=
  congrArg Asset.name h.named

/-- A path gives one asset, in any of its spellings. -/
theorem eq_of_same {b : Asset} (ha : Published t o a) (hb : Published t o b)
    (h : a.path.Same b.path) : a = b := by
  obtain ⟨specifier, importer, hresolve⟩ := ha.resolved
  obtain ⟨specifier', importer', hresolve'⟩ := hb.resolved
  have hpath := Resolve.eq_of_same_stylesheet hresolve hresolve' h
  have hcontent : a.content = b.content := by
    have hfetch := ha.fetched
    rw [hpath, hb.fetched] at hfetch
    exact (Except.ok.inj hfetch).symm
  rw [ha.named, hb.named, hpath, hcontent]

end Published

/-- The store and the bundle agree with what was published. -/
structure Agree (t : FileTree) (o : StyleOptions) (assets : List Asset) (store : AssetStore)
    (bundle : OutputBundle) : Prop where
  staging : store.staging = o.bundle.isSome
  published : ∀ a ∈ assets, Published t o a
  loaded : ∀ path a, store.loaded? path = some a →
    a ∈ assets ∧ a.path.Same path ∧ ∃ b, store.index.lookup a.name = some b
  index : ∀ name b, store.index.lookup name = some b → b ∈ assets ∧ b.name = name
  held : ∀ a ∈ assets, ∃ file, bundle.lookup a.name = some file
  files : ∀ name file, bundle.lookup name = some file →
    ∃ a ∈ assets, a.name = name ∧ file = ⟨.asset, a.content⟩
  ordered : bundle.Ordered

namespace Agree

theorem empty (t : FileTree) (o : StyleOptions) : Agree t o [] (.empty o.bundle.isSome) [] where
  staging := rfl
  published _ h := absurd h List.not_mem_nil
  loaded _ _ h := by cases h
  index _ _ h := by cases h
  held _ h := absurd h List.not_mem_nil
  files _ _ h := by cases h
  ordered := .nil

theorem reserve (h : Agree t o assets store bundle) (path : Path) :
    Agree t o assets (store.reserve path) bundle where
  staging := by rw [staging_reserve, h.staging]
  published := h.published
  loaded q a hq := by
    rw [index_reserve]
    rw [loaded?_reserve] at hq
    exact h.loaded q a hq
  index := by
    rw [index_reserve]
    exact h.index
  held := h.held
  files := h.files
  ordered := h.ordered

theorem reserveAll (h : Agree t o assets store bundle) (paths : List Path) :
    Agree t o assets (store.reserveAll paths) bundle := by
  induction paths generalizing store with
  | nil => exact h
  | cons path paths ih => exact ih (h.reserve path)

/-- An asset comes into the bundle before the store knows of it. -/
theorem emit (h : Agree t o assets store bundle) (ha : Published t o a) :
    Agree t o (assets ++ [a]) store (Listing.insert a.name ⟨.asset, a.content⟩ bundle) where
  staging := h.staging
  published b hb := by
    obtain hb | hb := List.mem_append.mp hb
    · exact h.published b hb
    · rw [List.mem_singleton.mp hb]
      exact ha
  loaded path b hb := by
    obtain ⟨hmem, hrest⟩ := h.loaded path b hb
    exact ⟨List.mem_append_left _ hmem, hrest⟩
  index name b hb := by
    obtain ⟨hmem, hname⟩ := h.index name b hb
    exact ⟨List.mem_append_left _ hmem, hname⟩
  held b hb := by
    rw [Listing.lookup_insert]
    split
    · exact ⟨_, rfl⟩
    · next hname =>
        obtain hb | hb := List.mem_append.mp hb
        · exact h.held b hb
        · rw [List.mem_singleton.mp hb] at hname
          exact absurd rfl hname
  files name file hfile := by
    rw [Listing.lookup_insert] at hfile
    split at hfile
    · next hname =>
        cases hfile
        exact ⟨a, List.mem_append_right _ (List.mem_singleton_self a), hname.symm, rfl⟩
    · obtain ⟨b, hb, hrest⟩ := h.files name file hfile
      exact ⟨b, List.mem_append_left _ hb, hrest⟩
  ordered := h.ordered.insert _ _

/-- Then it is filed under its name. -/
theorem file (h : Agree t o assets store bundle) (ha : a ∈ assets) :
    Agree t o assets (store.file a) bundle where
  staging := h.staging
  published := h.published
  loaded path b hb := by
    obtain ⟨hmem, hpath, hindex⟩ := h.loaded path b hb
    refine ⟨hmem, hpath, ?_⟩
    rw [lookup_file]
    split
    · exact ⟨a, rfl⟩
    · exact hindex
  index name b hb := by
    rw [lookup_file] at hb
    split at hb
    · next hname =>
        cases hb
        exact ⟨ha, hname.symm⟩
    · exact h.index name b hb
  held := h.held
  files := h.files
  ordered := h.ordered

/-- In the end its cell is filled. -/
theorem settle (h : Agree t o assets store bundle) (ha : a ∈ assets) (hcell : store.HasCell a.path)
    (hindex : ∃ b, store.index.lookup a.name = some b) :
    Agree t o assets (store.settle a) bundle where
  staging := h.staging
  published := h.published
  loaded path b hb := by
    rw [loaded?_settle hcell] at hb
    split at hb
    · next hsame =>
        cases hb
        exact ⟨ha, hsame, hindex⟩
    · exact h.loaded path b hb
  index := h.index
  held := h.held
  files := h.files
  ordered := h.ordered

/-- A cell that is filled keeps its asset, also when it is filled again. -/
theorem loaded?_settle_of_loaded (h : Agree t o assets store bundle) (ha : a ∈ assets)
    (hcell : store.HasCell a.path) {b : Asset} (hb : store.loaded? path = some b) :
    (store.settle a).loaded? path = some b := by
  rw [loaded?_settle hcell]
  split
  · next hsame =>
      obtain ⟨hmem, hpath, -⟩ := h.loaded path b hb
      have heq := (h.published a ha).eq_of_same (h.published b hmem) (hsame.trans hpath.symm)
      rw [heq]
  · exact hb

theorem fill (h : Agree t o assets store bundle) (ha : Published t o a)
    (hcell : store.HasCell a.path) :
    Agree t o (assets ++ [a]) (store.fill a)
      (Listing.insert a.name ⟨.asset, a.content⟩ bundle) := by
  have hmem : a ∈ assets ++ [a] := List.mem_append_right _ (List.mem_singleton_self a)
  rw [fill_eq]
  refine ((h.emit ha).file hmem).settle hmem hcell ⟨a, ?_⟩
  rw [lookup_file, if_pos rfl]

/-- A loaded asset can be referenced, and the reference leads to its content. -/
theorem referenced (h : Agree t o assets store bundle) (hapart : Asset.ContentsApart assets)
    (ha : store.loaded? path = some a) :
    ∃ b, store.referenced? a.reference = some b ∧ b.content = a.content := by
  obtain ⟨hmem, -, b, hb⟩ := h.loaded path a ha
  obtain ⟨hbmem, hname⟩ := h.index _ b hb
  refine ⟨b, by rw [referenced?, Asset.nameIn_reference, hb], hapart b hbmem a hmem ?_⟩
  rw [(h.published b hbmem).name_eq, (h.published a hmem).name_eq] at hname
  exact Asset.nameOf_inj.mp hname

/-- What was published is in the bundle. -/
theorem lookup_bundle (h : Agree t o assets store bundle) (hapart : Asset.ContentsApart assets)
    (ha : a ∈ assets) : bundle.lookup a.name = some ⟨.asset, a.content⟩ := by
  obtain ⟨file, hfile⟩ := h.held a ha
  obtain ⟨b, hb, hname, rfl⟩ := h.files _ _ hfile
  rw [(h.published b hb).name_eq, (h.published a ha).name_eq] at hname
  rw [hfile, hapart b hb a ha (Asset.nameOf_inj.mp hname)]

/-- Bundles of the same assets are the same, in whatever order these were published. -/
theorem bundle_eq {assets' : List Asset} {store' : AssetStore} {bundle' : OutputBundle}
    (h : Agree t o assets store bundle) (h' : Agree t o assets' store' bundle')
    (hapart : Asset.ContentsApart assets) (hmem : ∀ a, a ∈ assets ↔ a ∈ assets') :
    bundle = bundle' := by
  have hapart' : Asset.ContentsApart assets' := fun a ha b hb =>
    hapart a ((hmem a).mpr ha) b ((hmem b).mpr hb)
  refine h.ordered.ext h'.ordered fun name => ?_
  cases hfile : bundle.lookup name with
  | some file =>
      obtain ⟨a, ha, rfl, rfl⟩ := h.files _ _ hfile
      exact (h'.lookup_bundle hapart' ((hmem a).mp ha)).symm
  | none =>
      cases hfile' : bundle'.lookup name with
      | none => rfl
      | some file =>
          obtain ⟨a, ha, rfl, rfl⟩ := h'.files _ _ hfile'
          rw [h.lookup_bundle hapart ((hmem a).mpr ha)] at hfile
          cases hfile

end Agree

end Hook
end StyleBundler
