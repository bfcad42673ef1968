import StyleBundler.Proofs.Except
import StyleBundler.Proofs.Hook.Published

/-!
What a module becomes does not depend on what was loaded before it. The asset of a site is given
by its specifier and the files alone (`assetFor`), and the new code of a module by its own code
and path (`rewriting`). Transforming keeps what was published, the store and the bundle in
agreement (`exists_agree_transform`), and gives that code (`rewriting_of_transform`).
-/

namespace StyleBundler.Hook

open Import AssetStore

variable {t : FileTree} {o : StyleOptions} {assets : List Asset} {store : AssetStore}
  {bundle : OutputBundle} {path importer : Path} {site : Site} {a : Asset} {code : String}

/-- The asset that a site of a module imports. -/
def assetFor (t : FileTree) (o : StyleOptions) (importer : Path) (site : Site) :
    Except StyleError Asset := do
  let path ← Resolve.stylesheet t site.specifier importer
  let content ← fetch t o.transform path
  .ok (.ofContent o.bundle.isSome path content)

def sitesOf (o : StyleOptions) (path : Path) (code : String) : List Site :=
  Stylesheets.sites (classifyModule o.ignoredSchemes code path.moduleId)

/-- What becomes of a module, given the assets that its sites import. -/
def rewritten (o : StyleOptions) (path : Path) (code : String) (assets : List Asset) :
    Except StyleError Change :=
  Stylesheets.apply path.moduleId code (Stylesheets.edits ((sitesOf o path code).zip assets))

/-- What becomes of a module. -/
def rewriting (t : FileTree) (o : StyleOptions) (path : Path) (code : String) :
    Except StyleError Change := do
  let assets ← (sitesOf o path code).mapM (assetFor t o path)
  rewritten o path code assets

/-- The code of a module after a change. -/
def Change.codeFor (source : String) : Change → String
  | .skip => source
  | .changed code _ => code

theorem assetFor_eq_ok_iff : assetFor t o importer site = .ok a ↔
    Published t o a ∧ Resolve.stylesheet t site.specifier importer = .ok a.path := by
  simp only [assetFor, bind_eq_ok_iff]
  constructor
  · rintro ⟨path, hresolve, content, hfetch, heq⟩
    cases heq
    exact ⟨.ofContent hresolve hfetch, hresolve⟩
  · rintro ⟨hpublished, hresolve⟩
    exact ⟨a.path, hresolve, a.content, hpublished.fetched, congrArg _ hpublished.named.symm⟩

/-- A site that names its stylesheet relative to the module imports what is there. -/
theorem assetFor_of_relative {content : String} (hbare : Resolve.isBare site.specifier = false)
    (hpath : ((Resolve.directoryOf importer).join ⟨site.specifier⟩).normalize = path)
    (hfile : t.isFile path = true) (hfetch : fetch t o.transform path = .ok content) :
    assetFor t o importer site = .ok (.ofContent o.bundle.isSome path content) := by
  have hresolve : Resolve.stylesheet t site.specifier importer = .ok path := by
    simp only [Resolve.stylesheet, hbare, hpath, hfile, if_true]
    rfl
  exact assetFor_eq_ok_iff.mpr ⟨.ofContent hresolve hfetch, hresolve⟩

theorem rewriting_eq (h : List.Forall₂ (fun site a => assetFor t o path site = .ok a)
    (sitesOf o path code) assets) : rewriting t o path code = rewritten o path code assets := by
  rw [rewriting, mapM_eq_ok_iff.mpr h]
  rfl

theorem rewritten_nil (h : sitesOf o path code = []) :
    rewritten o path code [] = .ok .skip := by
  rw [rewritten, h]
  rfl

/-- A module with one site can be rewritten where its site can be redirected. -/
theorem exists_rewriting_of_site (hsites : sitesOf o path code = [site])
    (ha : assetFor t o path site = .ok a)
    (hfit : Edits.firstError? 0 code.toList 0 [⟨site.span, ""⟩] = none) :
    ∃ change, rewriting t o path code = .ok change := by
  have hall : List.Forall₂ (fun site a => assetFor t o path site = .ok a) (sitesOf o path code)
      [a] := by
    rw [hsites]
    exact .cons ha .nil
  obtain ⟨code', map, hchanged⟩ := Stylesheets.exists_apply_changed path.moduleId
    hall.length_eq (by simp [hsites]) (by simp [hsites]) (by rwa [hsites])
  exact ⟨.changed code' map, by rw [rewriting_eq hall, rewritten, hchanged]⟩

namespace Agree

/-- What the store holds for a site is the asset that the site imports anyway. -/
theorem assetFor_of_assetOf? (h : Agree t o assets store bundle)
    (ha : Stylesheets.assetOf? store t importer site = some a) :
    a ∈ assets ∧ assetFor t o importer site = .ok a := by
  obtain ⟨path, hresolve, hloaded⟩ := Option.bind_eq_some_iff.mp ha
  obtain ⟨hmem, hsame, -⟩ := h.loaded path a hloaded
  have hok : Resolve.stylesheet t site.specifier importer = .ok path := by
    cases hstylesheet : Resolve.stylesheet t site.specifier importer with
    | error e =>
        rw [hstylesheet] at hresolve
        cases hresolve
    | ok place =>
        rw [hstylesheet] at hresolve
        cases hresolve
        rfl
  have hpublished := h.published a hmem
  obtain ⟨specifier, other, hother⟩ := hpublished.resolved
  refine ⟨hmem, assetFor_eq_ok_iff.mpr ⟨hpublished, ?_⟩⟩
  rw [hok, Resolve.eq_of_same_stylesheet hother hok hsame]

/-- Loading a stylesheet of some specifier. -/
theorem load {specifier : String} (c : Context) (h : Agree t o assets store c.bundle)
    (hresolve : Resolve.stylesheet t specifier importer = .ok path) :
    Agree t o (assets ++ (store.load t o.transform path).published)
      (store.load t o.transform path).store
      (c.publish (store.load t o.transform path).published).bundle := by
  cases hloaded : store.loaded? path with
  | some b =>
      rw [load_of_loaded hloaded, List.append_nil]
      exact h.reserve path
  | none =>
      cases hfetch : fetch t o.transform path with
      | error e =>
          rw [load_of_error hloaded hfetch, List.append_nil]
          exact h.reserve path
      | ok content =>
          rw [load_of_fetched hloaded hfetch, h.staging]
          exact (h.reserve path).fill (.ofContent hresolve hfetch) (hasCell_reserve store path)

theorem loadEach {paths : List Path} (c : Context) (h : Agree t o assets store c.bundle)
    (hresolve : ∀ path ∈ paths, ∃ specifier importer,
      Resolve.stylesheet t specifier importer = .ok path) :
    Agree t o (assets ++ (store.loadEach t o.transform paths).published)
      (store.loadEach t o.transform paths).store
      (c.publish (store.loadEach t o.transform paths).published).bundle := by
  induction paths generalizing assets store c with
  | nil =>
      rw [AssetStore.loadEach, List.append_nil]
      exact h
  | cons path paths ih =>
      obtain ⟨specifier, importer, hpath⟩ := hresolve path List.mem_cons_self
      have hfirst := h.load c hpath
      simp only [AssetStore.loadEach]
      split
      · exact hfirst
      · have hrest := ih _ hfirst fun q hq => hresolve q (List.mem_cons_of_mem _ hq)
        rw [List.append_assoc] at hrest
        rwa [Context.publish, List.foldl_append]

end Agree

theorem path_mem_of_published {paths : List Path} {f : Option ContentTransform}
    (h : a ∈ (store.loadEach t f paths).published) : a.path ∈ paths := by
  induction paths generalizing store with
  | nil => cases h
  | cons path paths ih =>
      have hfirst : ∀ a ∈ (store.load t f path).published, a.path = path := by
        intro a ha
        cases hloaded : store.loaded? path with
        | some b =>
            rw [load_of_loaded hloaded] at ha
            cases ha
        | none =>
            cases hfetch : fetch t f path with
            | error e =>
                rw [load_of_error hloaded hfetch] at ha
                cases ha
            | ok content =>
                rw [load_of_fetched hloaded hfetch] at ha
                rw [List.mem_singleton.mp ha]
                rfl
      simp only [AssetStore.loadEach] at h
      split at h
      · exact hfirst a h ▸ List.mem_cons_self
      · obtain h | h := List.mem_append.mp h
        · exact hfirst a h ▸ List.mem_cons_self
        · exact List.mem_cons_of_mem _ (ih h)

namespace Stylesheets

variable {s s' : Stylesheets} {c c' : Context} {found : List Site} {change : Change}

theorem mem_paths_locate {p : Path} (h : p ∈ (locate t importer found).paths) :
    ∃ site ∈ found, Resolve.stylesheet t site.specifier importer = .ok p := by
  rw [locate] at h
  induction found with
  | nil => cases h
  | cons site found ih =>
      rw [List.map_cons] at h
      cases hsite : Resolve.stylesheet t site.specifier importer with
      | error e =>
          rw [hsite] at h
          cases h
      | ok path =>
          rw [hsite] at h
          obtain rfl | h := List.mem_cons.mp h
          · exact ⟨site, List.mem_cons_self, hsite⟩
          · obtain ⟨site', hmem, hsite'⟩ := ih h
            exact ⟨site', List.mem_cons_of_mem _ hmem, hsite'⟩

theorem exists_agree_load (h : Agree t s.options assets s.store c.bundle) (code : String)
    (path : Path) (found : List Site) :
    ∃ more, Agree t s.options (assets ++ more) (s.load t c code path found).2.1.store
        (s.load t c code path found).2.2.bundle ∧
      ∀ a ∈ more, ∃ site ∈ found, assetFor t s.options path site = .ok a := by
  unfold load
  dsimp only
  split
  · refine ⟨[], ?_, by simp⟩
    rw [List.append_nil]
    exact h.reserveAll _
  · have hpaths : ∀ p ∈ (locate t path found).paths, ∃ specifier importer,
        Resolve.stylesheet t specifier importer = .ok p := by
      intro p hp
      obtain ⟨site, -, hsite⟩ := mem_paths_locate hp
      exact ⟨_, _, hsite⟩
    have hloaded := (h.reserveAll ((locate t path found).paths ++ (locate t path found).further)
      ).loadEach c hpaths
    refine ⟨_, hloaded, fun a ha => ?_⟩
    obtain ⟨site, hmem, hsite⟩ := mem_paths_locate (path_mem_of_published ha)
    exact ⟨site, hmem,
      assetFor_eq_ok_iff.mpr ⟨hloaded.published a (List.mem_append_right _ ha), hsite⟩⟩

/-- Transforming a module publishes what its sites import, and nothing is lost. -/
theorem exists_agree_transform (h : Agree t s.options assets s.store c.bundle) (code : String)
    (path : Path) :
    ∃ more, Agree t s.options (assets ++ more) (s.transform t c code path).2.1.store
        (s.transform t c code path).2.2.bundle ∧
      ∀ a ∈ more, ∃ site ∈ sitesOf s.options path code,
        assetFor t s.options path site = .ok a := by
  unfold transform
  dsimp only
  split
  · refine ⟨[], ?_, by simp⟩
    rw [List.append_nil]
    exact h
  · exact exists_agree_load (c := c.report _) h code path _

theorem options_transform (s : Stylesheets) (t : FileTree) (c : Context) (code : String)
    (path : Path) : (s.transform t c code path).2.1.options = s.options := by
  unfold transform load
  dsimp only
  split
  · rfl
  · split <;> rfl

/-- A transform that succeeds has loaded a stylesheet for every site. -/
theorem exists_forall₂_assetOf? (h : s.transform t c code path = (.ok change, s', c')) :
    ∃ assets, List.Forall₂ (fun site a => assetOf? s'.store t path site = some a)
        (sitesOf s.options path code) assets ∧
      rewritten s.options path code assets = .ok change := by
  unfold transform at h
  dsimp only at h
  split at h
  · next hsites =>
      cases h
      refine ⟨[], ?_, rewritten_nil hsites⟩
      rw [sitesOf, hsites]
      exact .nil
  · exact exists_assets_of_load h

/-- A module is rewritten as its code and path alone say, and all that its sites import has been
published. -/
theorem rewriting_of_transform (h : Agree t s.options assets s.store c.bundle)
    (htransform : s.transform t c code path = (.ok change, s', c')) :
    rewriting t s.options path code = .ok change ∧
      ∃ more, Agree t s.options (assets ++ more) s'.store c'.bundle ∧
        (∀ a ∈ more, ∃ site ∈ sitesOf s.options path code,
          assetFor t s.options path site = .ok a) ∧
        ∀ site ∈ sitesOf s.options path code,
          ∃ a ∈ assets ++ more, assetFor t s.options path site = .ok a := by
  obtain ⟨more, hagree, hmore⟩ := exists_agree_transform h code path
  rw [htransform] at hagree
  obtain ⟨found, hfound, hchange⟩ := exists_forall₂_assetOf? htransform
  have hassets := hfound.imp fun site a ha => hagree.assetFor_of_assetOf? ha
  refine ⟨?_, more, hagree, hmore, ?_⟩
  · rw [rewriting_eq (hassets.imp fun _ _ ha => ha.2), hchange]
  · intro site hsite
    obtain ⟨a, -, ha⟩ := exists_of_forall₂_of_mem hassets hsite
    exact ⟨a, ha⟩

/-- The sites of a module that can be rewritten all lead to stylesheets. -/
theorem locate_of_forall₂ (h : List.Forall₂ (fun site a => assetFor t o path site = .ok a)
    found assets) :
    locate t path found = ⟨assets.map Asset.path, none, []⟩ ∧ ∀ a ∈ assets, Published t o a := by
  have hresolved : (found.map fun site => Resolve.stylesheet t site.specifier path) =
        (assets.map Asset.path).map .ok ∧ ∀ a ∈ assets, Published t o a := by
    induction h with
    | nil => exact ⟨rfl, by simp⟩
    | cons ha _ ih =>
        obtain ⟨hpublished, hresolve⟩ := assetFor_eq_ok_iff.mp ha
        refine ⟨?_, List.forall_mem_cons.mpr ⟨hpublished, ih.2⟩⟩
        rw [List.map_cons, List.map_cons, List.map_cons, hresolve, ih.1]
  exact ⟨by rw [locate, hresolved.1, Located.ofList_ok], hresolved.2⟩

theorem exists_forall₂_of_rewriting (h : rewriting t o path code = .ok change) :
    ∃ assets, List.Forall₂ (fun site a => assetFor t o path site = .ok a)
        (sitesOf o path code) assets ∧ rewritten o path code assets = .ok change := by
  simpa only [rewriting, bind_eq_ok_iff, mapM_eq_ok_iff] using h

/-- Sites that lead to stylesheets that can be read are redirected to their assets. -/
theorem load_of_forall₂ (code : String) (h : Agree t s.options assets s.store c.bundle)
    {expected : List Asset}
    (hall : List.Forall₂ (fun site a => assetFor t s.options path site = .ok a) found expected) :
    ∃ s' c', s.load t c code path found =
      (apply path.moduleId code (edits (found.zip expected)), s', c') := by
  obtain ⟨hlocate, hpublished⟩ := locate_of_forall₂ hall
  have hresolve : ∀ p ∈ expected.map Asset.path, ∃ specifier importer,
      Resolve.stylesheet t specifier importer = .ok p := by
    intro p hp
    obtain ⟨a, ha, rfl⟩ := List.mem_map.mp hp
    exact (hpublished a ha).resolved
  have hfetch : ∀ p ∈ expected.map Asset.path,
      ∃ content, fetch t s.options.transform p = .ok content := by
    intro p hp
    obtain ⟨a, ha, rfl⟩ := List.mem_map.mp hp
    exact ⟨_, (hpublished a ha).fetched⟩
  obtain ⟨loaded, hloaded⟩ := AssetStore.exists_loadEach
    (s := s.store.reserveAll (expected.map Asset.path)) hfetch
  have hagree := (h.reserveAll (expected.map Asset.path)).loadEach c hresolve
  have heq : List.Forall₂ (· = ·) expected loaded := by
    have hfiled := List.forall₂_map_left_iff.mp (AssetStore.loaded?_loadEach hloaded)
    refine ((List.forall₂_and_left _ _).mpr ⟨hpublished, hfiled⟩).imp fun a b hab => ?_
    obtain ⟨hmem, hsame, -⟩ := hagree.loaded _ _ hab.2
    exact hab.1.eq_of_same (hagree.published b hmem) hsame.symm
  rw [List.forall₂_eq_eq_eq] at heq
  subst heq
  simp only [load, hlocate, List.append_nil, ite_self, early?, hloaded, Except.bind]
  exact ⟨_, _, rfl⟩

/-- A module that can be rewritten is. -/
theorem transform_of_rewriting (h : Agree t s.options assets s.store c.bundle)
    (hrewriting : rewriting t s.options path code = .ok change) :
    ∃ s' c', s.transform t c code path = (.ok change, s', c') := by
  obtain ⟨expected, hall, hchange⟩ := exists_forall₂_of_rewriting hrewriting
  unfold transform
  dsimp only
  split
  · next hsites =>
      have hnil : expected = [] := by
        rw [sitesOf, hsites] at hall
        cases hall
        rfl
      rw [hnil, rewritten_nil hsites] at hchange
      cases hchange
      exact ⟨_, _, rfl⟩
  · obtain ⟨s', c', hload⟩ := load_of_forall₂ code (c := c.report _) h hall
    rw [← hchange]
    exact ⟨s', c', hload⟩

end Stylesheets

end StyleBundler.Hook
