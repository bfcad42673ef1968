import StyleBundler.Hook.Stylesheets
import StyleBundler.Proofs.Asset.Batch
import StyleBundler.Proofs.Edit
import StyleBundler.Proofs.Import.Specifier

/-!
What a module goes through that comes out changed: each of its sites is resolved and loaded
(`transform_eq_changed`), and the edits of its specifiers apply (`exists_redirects`).
-/

namespace StyleBundler.Hook.Stylesheets

open Import Script

/-- The asset that a site of a module imports. -/
def assetOf? (store : AssetStore) (t : FileTree) (importer : Path) (site : Site) : Option Asset :=
  (Resolve.stylesheet t site.specifier importer).toOption.bind store.loaded?

def redirectOf (x : Site × Asset) : Span × String := (x.1.span, x.2.reference)

theorem Located.failure_eq_none {found : List (Except StyleError Path)}
    (h : (Located.ofList found).failure = none) :
    found = (Located.ofList found).paths.map .ok := by
  induction found with
  | nil => rfl
  | cons outcome found ih =>
      cases outcome with
      | error e => cases h
      | ok path => exact congrArg (Except.ok path :: ·) (ih h)

theorem edits_eq (parts : List (Site × Asset)) :
    edits parts = ⟨(parts.map redirectOf).map Redirects.edit, []⟩ := by
  have htext : ∀ a : Asset, "'" ++ a.reference ++ "'" = String.ofList (plainText a.reference) := by
    intro a
    apply String.toList_injective
    simp [plainText]
  rw [edits, Edits.foldl_overwrite parts (fun x => x.1.span) fun x => "'" ++ x.2.reference ++ "'"]
  simp only [Edits.empty, List.nil_append, htext, List.map_map]
  rfl

/-- The edits of a module that comes out changed, in the order in which they were made. -/
theorem exists_redirects {moduleId code code' : String} {map : Option String}
    {parts : List (Site × Asset)}
    (h : apply moduleId code (edits parts) = .ok (.changed code' map)) :
    ∃ rs : Redirects, rs.Perm (parts.map redirectOf) ∧
      (rs.Pairwise fun a b => a.1.stop ≤ b.1.start) ∧
      code' = String.ofList
        ((Edits.patches 0 code.toList (rs.map Redirects.edit)).flatMap Patch.text) := by
  obtain ⟨r, hr, rfl⟩ : ∃ r, (edits parts).apply code.toList = .ok (some r) ∧
      code' = String.ofList r.code := by
    unfold apply at h
    split at h
    · cases h
    · cases h
    · next r hr =>
        cases h
        exact ⟨r, hr, rfl⟩
  rw [edits_eq] at hr
  obtain ⟨hcheck, rfl⟩ := Edits.apply_eq_some hr
  let rs : Redirects := (parts.map redirectOf).mergeSort fun a b =>
    Edit.precedes (Redirects.edit a) (Redirects.edit b)
  have hsort : ((parts.map redirectOf).map Redirects.edit).mergeSort Edit.precedes =
      rs.map Redirects.edit :=
    (List.map_mergeSort (f := Redirects.edit) (s := Edit.precedes) fun _ _ _ _ => rfl).symm
  simp only [hsort] at hcheck ⊢
  refine ⟨rs, List.mergeSort_perm _ _, ?_, rfl⟩
  exact List.pairwise_map.mp (Edits.pairwise_of_firstError? hcheck).2

theorem forall₂_assetOf? {store : AssetStore} {t : FileTree} {path : Path} {found : List Site}
    {paths : List Path} {assets : List Asset}
    (hlocated : (found.map fun site => Resolve.stylesheet t site.specifier path) = paths.map .ok)
    (hloaded : List.Forall₂ (fun p a => store.loaded? p = some a) paths assets) :
    List.Forall₂ (fun site a => assetOf? store t path site = some a) found assets := by
  have hresolved : List.Forall₂
      (fun (outcome : Except StyleError Path) a => outcome.toOption.bind store.loaded? = some a)
      (paths.map .ok) assets := List.forall₂_map_left_iff.mpr hloaded
  rw [← hlocated] at hresolved
  exact List.forall₂_map_left_iff.mp hresolved

theorem exists_assets_of_load {s s' : Stylesheets} {t : FileTree} {c c' : Context}
    {code : String} {path : Path} {found : List Site} {change : Change}
    (h : s.load t c code path found = (.ok change, s', c')) :
    ∃ assets, List.Forall₂ (fun site a => assetOf? s'.store t path site = some a) found assets ∧
      apply path.moduleId code (edits (found.zip assets)) = .ok change := by
  unfold load at h
  dsimp only at h
  split at h
  · cases h
  · obtain ⟨hresult, hstate⟩ := Prod.mk.inj h
    obtain ⟨rfl, -⟩ := Prod.mk.inj hstate
    cases hassets : ((s.store.reserveAll _).loadEach t s.options.transform _).result with
    | error e =>
        rw [hassets] at hresult
        cases hresult
    | ok assets =>
        rw [hassets] at hresult
        simp only [Except.bind] at hresult
        split at hresult
        · cases hresult
        · next hfailure =>
            exact ⟨assets, forall₂_assetOf? (Located.failure_eq_none hfailure)
              (AssetStore.loaded?_loadEach hassets), hresult⟩

/-- A module that comes out changed has each of its sites resolved and loaded. -/
theorem exists_assets_of_transform {s s' : Stylesheets} {t : FileTree} {c c' : Context}
    {code code' : String} {path : Path} {map : Option String}
    (h : s.transform t c code path = (.ok (.changed code' map), s', c')) :
    ∃ assets, List.Forall₂ (fun site a => assetOf? s'.store t path site = some a)
        (sites (classifyModule s.options.ignoredSchemes code path.moduleId)) assets ∧
      apply path.moduleId code
        (edits ((sites (classifyModule s.options.ignoredSchemes code path.moduleId)).zip
          assets)) = .ok (.changed code' map) := by
  unfold transform at h
  dsimp only at h
  split at h
  · cases h
  · exact exists_assets_of_load h

theorem reachable_load {s : Stylesheets} (hs : s.store.Reachable) (t : FileTree) (c : Context)
    (code : String) (path : Path) (found : List Site) :
    (s.load t c code path found).2.1.store.Reachable := by
  unfold load
  dsimp only
  split
  · exact hs.reserveAll _
  · exact (hs.reserveAll _).loadEach t _ _

theorem reachable_transform {s : Stylesheets} (hs : s.store.Reachable) (t : FileTree)
    (c : Context) (code : String) (path : Path) :
    (s.transform t c code path).2.1.store.Reachable := by
  unfold transform
  dsimp only
  split
  · exact hs
  · exact reachable_load hs t _ code path _

theorem transform_eq_changed {s s' : Stylesheets} {t : FileTree} {c c' : Context}
    {code code' : String} {path : Path} {map : Option String} (hs : s.store.Reachable)
    (h : s.transform t c code path = (.ok (.changed code' map), s', c')) :
    s'.store.Reachable ∧
      ∃ assets, List.Forall₂ (fun site a => assetOf? s'.store t path site = some a)
          (sites (classifyModule s.options.ignoredSchemes code path.moduleId)) assets ∧
        apply path.moduleId code
          (edits ((sites (classifyModule s.options.ignoredSchemes code path.moduleId)).zip
            assets)) = .ok (.changed code' map) := by
  have hreachable := reachable_transform hs t c code path
  rw [h] at hreachable
  exact ⟨hreachable, exists_assets_of_transform h⟩

theorem Located.ofList_ok (paths : List Path) :
    Located.ofList (paths.map .ok) = ⟨paths, none, []⟩ := by
  induction paths with
  | nil => rfl
  | cons path paths ih => rw [List.map_cons, Located.ofList, ih]

/-- Edits of sites that come in their order and keep apart change the module. -/
theorem exists_apply_changed (moduleId : String) {code : String} {found : List Site}
    {assets : List Asset}
    (hlength : found.length = assets.length) (hfound : found ≠ [])
    (hsorted : found.Pairwise fun a b => Edit.precedes ⟨a.span, ""⟩ ⟨b.span, ""⟩ = true)
    (hfit : Edits.firstError? 0 code.toList 0 (found.map fun site => ⟨site.span, ""⟩) = none) :
    ∃ code' map, apply moduleId code (edits (found.zip assets)) = .ok (.changed code' map) := by
  have hzip : (found.zip assets).map Prod.fst = found :=
    List.map_fst_zip (Nat.le_of_eq hlength)
  let es := ((found.zip assets).map redirectOf).map Redirects.edit
  have hspans : (es.map fun e => (⟨e.span, ""⟩ : Edit)) =
      found.map fun site => ⟨site.span, ""⟩ := by
    rw [← hzip]
    simp only [es, List.map_map]
    rfl
  have hcheck : Edits.firstError? 0 code.toList 0 es = none := by
    rw [← Edits.firstError?_map_span, hspans, hfit]
  have hpairwise : es.Pairwise fun a b => Edit.precedes a b = true := by
    rw [← hzip, List.pairwise_map] at hsorted
    exact List.pairwise_map.mpr (List.pairwise_map.mpr hsorted)
  have hne : ¬(⟨es, []⟩ : Edits).isEmpty = true := by
    intro hempty
    have hnil : es = [] := List.isEmpty_iff.mp (Bool.and_eq_true_iff.mp hempty).1
    rw [hnil, List.map_nil] at hspans
    exact hfound (List.map_eq_nil_iff.mp hspans.symm)
  have hsome : ∃ r, (⟨es, []⟩ : Edits).apply code.toList = .ok (some r) := by
    rw [Edits.apply, if_neg hne]
    simp only [List.mergeSort_of_pairwise hpairwise, hcheck]
    exact ⟨_, rfl⟩
  obtain ⟨r, hr⟩ := hsome
  rw [apply, edits_eq]
  simp only [es] at hr
  rw [hr]
  exact ⟨_, _, rfl⟩

/-- A module with sites comes out changed where all of them can be resolved and read, and come one
behind the other. -/
theorem exists_transform_changed (s : Stylesheets) (t : FileTree) (c : Context) (code : String)
    (path : Path) {found : List Site} {paths : List Path}
    (hsites : sites (classifyModule s.options.ignoredSchemes code path.moduleId) = found)
    (hfound : found ≠ [])
    (hresolve : (found.map fun site => Resolve.stylesheet t site.specifier path) = paths.map .ok)
    (hfetch : ∀ p ∈ paths, ∃ content, AssetStore.fetch t s.options.transform p = .ok content)
    (hsorted : found.Pairwise fun a b => Edit.precedes ⟨a.span, ""⟩ ⟨b.span, ""⟩ = true)
    (hfit : Edits.firstError? 0 code.toList 0 (found.map fun site => ⟨site.span, ""⟩) = none) :
    ∃ code' map s' c', s.transform t c code path = (.ok (.changed code' map), s', c') := by
  have hlocate : locate t path found = ⟨paths, none, []⟩ := by
    rw [locate, hresolve, Located.ofList_ok]
  have hearly : s.early? found ⟨paths, none, []⟩ = none := ite_self none
  obtain ⟨assets, hassets⟩ := AssetStore.exists_loadEach (s := s.store.reserveAll paths) hfetch
  have hlength : found.length = assets.length := by
    have hpaths := congrArg List.length hresolve
    rw [List.length_map, List.length_map] at hpaths
    exact hpaths.trans (AssetStore.loaded?_loadEach hassets).length_eq
  obtain ⟨code', map, hchanged⟩ :=
    exists_apply_changed path.moduleId hlength hfound hsorted hfit
  unfold transform
  dsimp only
  rw [hsites]
  split
  · exact absurd rfl hfound
  · simp only [load, hlocate, hearly, List.append_nil, hassets, Except.bind, hchanged]
    exact ⟨_, _, _, _, rfl⟩

end StyleBundler.Hook.Stylesheets
