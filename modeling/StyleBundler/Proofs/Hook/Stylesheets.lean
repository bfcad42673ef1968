import StyleBundler.Proofs.Edit.Calls
import StyleBundler.Proofs.Hook.Redirected
import StyleBundler.Proofs.Pack.Entry
import StyleBundler.Proofs.Url

/-!
What packing finds in a module whose stylesheet imports were redirected. The import nodes of the
changed code are those of the module, each where the edits moved it, and only the sites have
another specifier: the reference to their own asset. The plan of the changed code has one entry
for each site and no other.
-/

namespace StyleBundler

open Import Script

/-- The node moved, with another specifier if there is one for it. -/
def Script.ImportNode.retarget (f : Nat → Nat) (reference? : Option String) (n : ImportNode) :
    ImportNode :=
  reference?.elim (n.move f) (n.move f).withSpecifier

namespace Hook.Stylesheets

variable {store : AssetStore} {t : FileTree} {importer : Path} {schemes : List String}
  {code : String}

/-- What the specifiers of sites are redirected to. -/
def redirects (store : AssetStore) (t : FileTree) (importer : Path) (found : List Site) :
    Redirects :=
  found.filterMap fun site =>
    (assetOf? store t importer site).map fun a => redirectOf (site, a)

/-- The reference that a node gets if it is a site. -/
def target? (store : AssetStore) (t : FileTree) (importer : Path) (schemes : List String)
    (code : String) (n : ImportNode) : Option String :=
  match classify schemes code importer.moduleId n with
  | .css site => (assetOf? store t importer site).map Asset.reference
  | _ => none

theorem redirects_eq {found : List Site} {assets : List Asset}
    (h : List.Forall₂ (fun site a => assetOf? store t importer site = some a) found assets) :
    redirects store t importer found = (found.zip assets).map redirectOf := by
  induction h with
  | nil => rfl
  | cons hsite _ ih =>
      rw [redirects, List.filterMap_cons_some (by rw [hsite]; rfl), List.zip_cons_cons,
        List.map_cons, ← ih]
      rfl

theorem exists_path_of_assetOf? {site : Site} {a : Asset}
    (h : assetOf? store t importer site = some a) :
    ∃ path, Resolve.stylesheet t site.specifier importer = .ok path ∧
      store.loaded? path = some a := by
  obtain ⟨path, hpath, hloaded⟩ := Option.bind_eq_some_iff.mp h
  refine ⟨path, ?_, hloaded⟩
  cases hresolve : Resolve.stylesheet t site.specifier importer with
  | error e =>
      rw [hresolve] at hpath
      cases hpath
  | ok other =>
      rw [hresolve] at hpath
      cases hpath
      rfl

theorem mem_sites {site : Site} {moduleId : String} :
    site ∈ sites (classifyModule schemes code moduleId) ↔
      ∃ n ∈ importNodes code, classify schemes code moduleId n = .css site := by
  simp only [sites, classifyModule, List.mem_filterMap, List.mem_filter, List.mem_map]
  constructor
  · rintro ⟨_, ⟨⟨n, hn, rfl⟩, -⟩, hsite⟩
    refine ⟨n, hn, ?_⟩
    split at hsite
    · next hcss =>
        cases hsite
        exact hcss
    · cases hsite
  · rintro ⟨n, hn, hcss⟩
    exact ⟨_, ⟨⟨n, hn, rfl⟩, by rw [hcss]; rfl⟩, by rw [hcss]⟩

theorem exists_site_of_mem_redirects {x : Span × String}
    (h : x ∈ redirects store t importer (sites (classifyModule schemes code importer.moduleId))) :
    ∃ n ∈ importNodes code, ∃ site a, classify schemes code importer.moduleId n = .css site ∧
      assetOf? store t importer site = some a ∧ x = redirectOf (site, a) := by
  obtain ⟨site, hsite, hx⟩ := List.mem_filterMap.mp h
  obtain ⟨a, ha, rfl⟩ := Option.map_eq_some_iff.mp hx
  obtain ⟨n, hn, hcss⟩ := mem_sites.mp hsite
  exact ⟨n, hn, site, a, hcss, ha, rfl⟩

theorem reference_toList (a : Asset) : a.reference.toList = '.' :: '/' :: a.name.toList := by
  rw [Asset.reference, String.toList_append]
  rfl

/-- The reference to an asset of a reachable store can stand in a plain string. -/
theorem isPlain_reference (hs : store.Reachable) {site : Site} {a : Asset}
    (h : assetOf? store t importer site = some a) :
    a.reference.toList.all Lexer.isPlain = true := by
  obtain ⟨path, -, hloaded⟩ := exists_path_of_assetOf? h
  have hplain : ∀ c, Asset.isNameChar c = true → Lexer.isPlain c = true := by
    intro c hc
    simp only [Lexer.isPlain, Bool.and_eq_true, bne_iff_ne]
    refine ⟨⟨?_, ?_⟩, ?_⟩ <;> rintro rfl <;> revert hc <;> decide
  rw [reference_toList, List.all_cons, List.all_cons, List.all_eq_true.mpr fun c hc =>
    hplain c (hs.isNameChar_of_loaded? hloaded c hc)]
  rfl

theorem forSpecifiers_redirects :
    ForSpecifiers (redirects store t importer
      (sites (classifyModule schemes code importer.moduleId))) code := by
  intro x hx
  obtain ⟨n, hn, site, a, hcss, -, rfl⟩ := exists_site_of_mem_redirects hx
  obtain ⟨hspan, kind, hliteral⟩ := ImportNode.literal?_of_classify hcss
  exact ⟨n, hn, kind, hliteral, hspan⟩

theorem isPlain_of_mem_redirects (hs : store.Reachable) {x : Span × String}
    (h : x ∈ redirects store t importer
      (sites (classifyModule schemes code importer.moduleId))) :
    x.2.toList.all Lexer.isPlain = true := by
  obtain ⟨n, hn, site, a, -, ha, rfl⟩ := exists_site_of_mem_redirects h
  exact isPlain_reference hs ha

/-- A reference that leads to an asset is under no scheme. -/
theorem not_isUnder_of_referenced? (hs : store.Reachable) {reference : String} {a : Asset}
    (h : store.referenced? reference = some a) : Url.isUnder schemes reference = false := by
  rw [Bool.eq_false_iff]
  intro hscheme
  have hcolon := Url.colon_mem_of_isUnder hscheme
  have hname := hs.isNameChar (AssetStore.mem_assets_of_referenced h)
  have hne : ':' ∉ a.name.toList := fun hmem => absurd (hname _ hmem) (by decide)
  rw [← hs.nameIn_eq h] at hne
  unfold Asset.nameIn at hne
  split at hne
  · next name hafter =>
      rw [Text.after?_eq_some_iff] at hafter
      rw [hafter] at hcolon
      rw [String.toList_ofList] at hne
      simp [hne] at hcolon
  · exact hne hcolon

theorem target?_of_css {n : ImportNode} {site : Site} {a : Asset}
    (hcss : classify schemes code importer.moduleId n = .css site)
    (ha : assetOf? store t importer site = some a) :
    target? store t importer schemes code n = some a.reference := by
  simp only [target?, hcss, ha, Option.map_some]

theorem target?_of_not_css {n : ImportNode}
    (h : ¬∃ site, classify schemes code importer.moduleId n = .css site) :
    target? store t importer schemes code n = none := by
  unfold target?
  split
  · next site hcss => exact absurd ⟨site, hcss⟩ h
  · rfl

/-- Where redirects are for the sites of a module, each site gets its own asset and no other node
is redirected. -/
theorem redirect_eq_retarget {rs : Redirects} (hnodup : (rs.map (·.1)).Nodup)
    (hrs : ∀ x, x ∈ rs ↔ x ∈ redirects store t importer
      (sites (classifyModule schemes code importer.moduleId)))
    (hloaded : ∀ site ∈ sites (classifyModule schemes code importer.moduleId),
      ∃ a, assetOf? store t importer site = some a) {n : ImportNode} (hn : n ∈ importNodes code) :
    n.redirect rs = n.retarget rs.moved (target? store t importer schemes code n) := by
  by_cases hcss : ∃ site, classify schemes code importer.moduleId n = .css site
  · obtain ⟨site, hcss⟩ := hcss
    have hsite := mem_sites.mpr ⟨n, hn, hcss⟩
    obtain ⟨a, ha⟩ := hloaded site hsite
    obtain ⟨hspan, kind, hliteral⟩ := ImportNode.literal?_of_classify hcss
    have hmem : (site.span, a.reference) ∈ rs :=
      (hrs _).mpr (List.mem_filterMap.mpr ⟨site, hsite, by rw [ha]; rfl⟩)
    rw [target?_of_css hcss ha, ImportNode.redirect, hliteral, hspan, lookup_of_mem hnodup hmem]
    rfl
  · rw [target?_of_not_css hcss, ImportNode.redirect]
    split
    · next kind value hliteral hlookup =>
        have hmem := (hrs _).mp (mem_of_lookup hlookup)
        obtain ⟨n', hn', site, a, hsite, -, heq⟩ := exists_site_of_mem_redirects hmem
        obtain ⟨hspan, kind', hliteral'⟩ := ImportNode.literal?_of_classify hsite
        obtain ⟨hkind, hspecifier⟩ := isCss_eq_of_span_eq hn hliteral hn' hliteral'
          ((congrArg Prod.fst heq).trans hspan.symm)
        have hcss' := ImportNode.exists_classify_eq_css_iff.mp ⟨site, hsite⟩
        rw [← hkind, ← hspecifier] at hcss'
        exact absurd (ImportNode.exists_classify_eq_css_iff.mpr hcss') hcss
    · rfl

/-- Packing finds a site, and nothing in any other node. -/
theorem importOf?_retarget (hs : store.Reachable) (f : Nat → Nat) {n : ImportNode}
    (hn : n ∈ importNodes code)
    (hloaded : ∀ site ∈ sites (classifyModule schemes code importer.moduleId),
      ∃ a, assetOf? store t importer site = some a) :
    Plan.importOf? store (n.retarget f (target? store t importer schemes code n)) =
      (target? store t importer schemes code n).map fun reference =>
        (Plan.entryOf reference n).move f := by
  by_cases hcss : ∃ site, classify schemes code importer.moduleId n = .css site
  · obtain ⟨site, hcss⟩ := hcss
    obtain ⟨a, ha⟩ := hloaded site (mem_sites.mpr ⟨n, hn, hcss⟩)
    obtain ⟨path, -, hpath⟩ := exists_path_of_assetOf? ha
    obtain ⟨b, hb⟩ := hs.referenced?_reference hpath
    obtain ⟨hkind, -⟩ := ImportNode.classify_eq_css_iff.mp hcss
    rw [target?_of_css hcss ha, ImportNode.retarget, Option.elim_some, Plan.importOf?_eq,
      ImportNode.isCss_withSpecifier, ImportNode.isCss_move, hkind, if_pos rfl,
      ImportNode.specifierText?_withSpecifier, Option.bind_some, hb, Option.isSome_some,
      if_pos rfl, Plan.entryOf_withSpecifier, Plan.entryOf_move, Option.map_some]
  · rw [target?_of_not_css hcss, ImportNode.retarget, Option.elim_none, Plan.importOf?_eq,
      ImportNode.isCss_move, ImportNode.specifierText?_move, Option.map_none]
    split
    · next hkind =>
        cases htext : specifierText? n.specifier with
        | none => rfl
        | some text =>
            rw [Option.bind_some]
            split
            · next hsome =>
                obtain ⟨a, ha⟩ := Option.isSome_iff_exists.mp hsome
                exact absurd (ImportNode.exists_classify_eq_css_iff.mpr
                  ⟨hkind, text, htext, not_isUnder_of_referenced? hs ha⟩) hcss
            · rfl
    · rfl

/-- A module that is left alone has no sites. -/
theorem sites_of_transform_skip {s s' : Stylesheets} {t : FileTree} {c c' : Context} {code : String}
    {path : Path} (h : s.transform t c code path = (.ok .skip, s', c')) :
    sites (Import.classifyModule s.options.ignoredSchemes code path.moduleId) = [] := by
  unfold transform at h
  dsimp only at h
  split at h
  · next hsites => exact hsites
  · obtain ⟨assets, hassets, happly⟩ := exists_assets_of_load h
    have hnone : (edits ((sites (Import.classifyModule s.options.ignoredSchemes code
        path.moduleId)).zip assets)).apply code.toList = .ok none := by
      unfold apply at happly
      split at happly
      · cases happly
      · next hnone => exact hnone
      · cases happly
    have hempty := Edits.apply_eq_none_iff.mp hnone
    rw [edits_eq, Edits.isEmpty, Bool.and_eq_true, List.isEmpty_iff, List.map_eq_nil_iff,
      List.map_eq_nil_iff, List.zip_eq_nil_iff] at hempty
    rcases hempty.1 with hsites | hassets'
    · exact hsites
    · rw [hassets', List.forall₂_nil_right_iff] at hassets
      exact hassets

/-- The import nodes of a module that comes out changed: all stay, moved, and each site has the
reference to the asset that was loaded for it. -/
theorem exists_importNodes_of_changed {s s' : Stylesheets} {t : FileTree} {c c' : Context}
    {code code' : String} {path : Path} {map : Option String} (hs : s.store.Reachable)
    (h : s.transform t c code path = (.ok (.changed code' map), s', c')) :
    s'.store.Reachable ∧
      (∀ site ∈ sites (classifyModule s.options.ignoredSchemes code path.moduleId),
        ∃ a, assetOf? s'.store t path site = some a) ∧
      ∃ moved, importNodes code' = (importNodes code).map fun n =>
        n.retarget moved (target? s'.store t path s.options.ignoredSchemes code n) := by
  obtain ⟨hs', assets, hassets, happly⟩ := transform_eq_changed hs h
  obtain ⟨rs, hperm, hsorted, rfl⟩ := exists_redirects happly
  rw [← redirects_eq hassets] at hperm
  have hloaded : ∀ site ∈ sites (classifyModule s.options.ignoredSchemes code path.moduleId),
      ∃ a, assetOf? s'.store t path site = some a :=
    ((List.forall₂_and_left (R := fun _ _ => True) _ _).mp
      (hassets.imp fun _ a ha => ⟨⟨a, ha⟩, trivial⟩)).1
  have hspecifiers : ForSpecifiers rs code :=
    fun x hx => forSpecifiers_redirects x (hperm.mem_iff.mp hx)
  have hplain : ∀ x ∈ rs, x.2.toList.all Lexer.isPlain = true :=
    fun x hx => isPlain_of_mem_redirects hs' (hperm.mem_iff.mp hx)
  refine ⟨hs', hloaded, rs.moved, ?_⟩
  rw [importNodes_patches hspecifiers hsorted hplain]
  exact List.map_congr_left fun n hn => redirect_eq_retarget
    (nodup_spans hspecifiers.exists_token hsorted) (fun x => hperm.mem_iff) hloaded hn

/-- A module that comes out changed keeps its import nodes, in order, each where the edits before
it moved it. Its sites, and no other nodes, get another specifier, the reference to the asset that
was loaded for them; and the plan of the changed code has one entry for each site and no other. -/
theorem importNodes_transform {s s' : Stylesheets} {t : FileTree} {c c' : Context}
    {code code' : String} {path : Path} {map : Option String} (hs : s.store.Reachable)
    (h : s.transform t c code path = (.ok (.changed code' map), s', c')) :
    let schemes := s.options.ignoredSchemes
    let target := target? s'.store t path schemes code
    let moved := (redirects s'.store t path
      (sites (classifyModule schemes code path.moduleId))).moved
    (∀ n ∈ importNodes code, ∀ site, classify schemes code path.moduleId n = .css site →
      ∃ p a, Resolve.stylesheet t site.specifier path = .ok p ∧ s'.store.loaded? p = some a ∧
        target n = some a.reference) ∧
      (∀ n, (¬∃ site, classify schemes code path.moduleId n = .css site) → target n = none) ∧
      importNodes code' = (importNodes code).map (fun n => n.retarget moved (target n)) ∧
      Plan.scan s'.store code' = (importNodes code).filterMap fun n =>
        (target n).map fun reference => (Plan.entryOf reference n).move moved := by
  intro schemes target moved
  obtain ⟨hs', assets, hassets, happly⟩ := transform_eq_changed hs h
  obtain ⟨rs, hperm, hsorted, rfl⟩ := exists_redirects happly
  rw [← redirects_eq hassets] at hperm
  have hloaded : ∀ site ∈ sites (classifyModule schemes code path.moduleId),
      ∃ a, assetOf? s'.store t path site = some a :=
    ((List.forall₂_and_left (R := fun _ _ => True) _ _).mp
      (hassets.imp fun _ a ha => ⟨⟨a, ha⟩, trivial⟩)).1
  have hspecifiers : ForSpecifiers rs code :=
    fun x hx => forSpecifiers_redirects x (hperm.mem_iff.mp hx)
  have hplain : ∀ x ∈ rs, x.2.toList.all Lexer.isPlain = true :=
    fun x hx => isPlain_of_mem_redirects hs' (hperm.mem_iff.mp hx)
  have hnodup := nodup_spans hspecifiers.exists_token hsorted
  have hmoved : rs.moved = moved := moved_perm hperm
  have hnodes : importNodes (String.ofList
        ((Edits.patches 0 code.toList (rs.map Redirects.edit)).flatMap Patch.text)) =
      (importNodes code).map fun n => n.retarget moved (target n) := by
    rw [importNodes_patches hspecifiers hsorted hplain]
    refine List.map_congr_left fun n hn => ?_
    rw [redirect_eq_retarget hnodup (fun x => hperm.mem_iff) hloaded hn, hmoved]
  refine ⟨?_, fun n => target?_of_not_css, hnodes, ?_⟩
  · intro n hn site hcss
    obtain ⟨a, ha⟩ := hloaded site (mem_sites.mpr ⟨n, hn, hcss⟩)
    obtain ⟨p, hp, hpath⟩ := exists_path_of_assetOf? ha
    exact ⟨p, a, hp, hpath, target?_of_css hcss ha⟩
  · rw [Plan.scan, hnodes, List.filterMap_map]
    exact List.filterMap_congr fun n hn => importOf?_retarget hs' moved hn hloaded

/-- A declaration, and a call that spells the same specifier as a template. -/
theorem importNodes_transform_template :
    let t : FileTree := ⟨[(["a.css"], .file ".a\x7b\x7d".toUTF8)], []⟩
    let code := "import a from './a.css' with \x7b type: 'css' \x7d;\n" ++
      "const b = await import(\x60./a.css\x60, \x7b with: \x7b type: 'css' \x7d \x7d);\n"
    ∃ code' map s' c' a,
      (ofOptions .standard).transform t .empty code ⟨"/main.js"⟩ =
        (.ok (.changed code' map), s', c') ∧
      s'.store.loaded? ⟨"/a.css"⟩ = some a ∧
      (Plan.scan s'.store code').map (·.reference) = [a.reference, a.reference] := by
  intro t code
  let path : Path := ⟨"/a.css"⟩
  let declared : Site := ⟨.static (some "a"), .literal, "./a.css", ⟨14, 23⟩, "/main.js"⟩
  let called : Site := ⟨.dynamic (some "b") true, .template, "./a.css", ⟨69, 78⟩, "/main.js"⟩
  have hclasses : (importNodes code).map (classify defaultSchemes code "/main.js") =
      [.css declared, .css called] := by decide +kernel
  have hsites : sites (classifyModule defaultSchemes code "/main.js") = [declared, called] := by
    rw [classifyModule, hclasses]
    rfl
  have htext : ("/a.css".toList.contains '\x00') = false := by decide
  have hresolve : Resolve.stylesheet t "./a.css" ⟨"/main.js"⟩ = .ok path := by
    have hfile : t.isFile path = true := by
      simp only [FileTree.isFile, FileTree.locate, FileTree.checkPath, FileTree.trace, path, htext]
      rfl
    have hpath : ((Resolve.directoryOf ⟨"/main.js"⟩).join ⟨"./a.css"⟩).normalize = path := by
      decide +kernel
    have hbare : Resolve.isBare "./a.css" = false := by decide +kernel
    simp only [Resolve.stylesheet, hbare, hpath, hfile, if_true]
    rfl
  have hfetch : AssetStore.fetch t none path = .ok ".a\x7b\x7d" := by
    have hread : t.readText path = .ok ".a\x7b\x7d" := by
      simp only [FileTree.readText, FileTree.locate, FileTree.checkPath, FileTree.trace, path,
        htext]
      rfl
    simp only [AssetStore.fetch, hread]
  have hresolved : ([declared, called].map fun site =>
      Resolve.stylesheet t site.specifier ⟨"/main.js"⟩) = [path, path].map .ok := by
    simp only [List.map_cons, List.map_nil, declared, called, hresolve]
  have hfetched : ∀ p ∈ [path, path], ∃ content, AssetStore.fetch t none p = .ok content := by
    intro p hp
    rw [List.mem_pair, or_self] at hp
    exact ⟨_, hp ▸ hfetch⟩
  obtain ⟨code', map, s', c', h⟩ := exists_transform_changed (ofOptions .standard) t .empty code
    ⟨"/main.js"⟩ hsites (List.cons_ne_nil _ _) hresolved hfetched (by decide +kernel)
    (by decide +kernel)
  obtain ⟨hcss, -, -, hplan⟩ := importNodes_transform (.empty false) h
  obtain ⟨n, rest, hnodes, hn, hrest⟩ := List.map_eq_cons_iff.mp hclasses
  obtain ⟨n', rest', rfl, hn', hrest'⟩ := List.map_eq_cons_iff.mp hrest
  rw [List.map_eq_nil_iff.mp hrest'] at hnodes
  obtain ⟨p, a, hp, hloaded, htarget⟩ := hcss n (by simp [hnodes]) declared hn
  obtain ⟨p', a', hp', hloaded', htarget'⟩ := hcss n' (by simp [hnodes]) called hn'
  cases hresolve.symm.trans hp
  cases hresolve.symm.trans hp'
  cases hloaded.symm.trans hloaded'
  refine ⟨code', map, s', c', a, h, hloaded, ?_⟩
  have hentry : ∀ (reference : String) (n : ImportNode),
      (Plan.entryOf reference n).reference = reference := by
    intro reference n
    cases n <;> rfl
  rw [hplan, hnodes]
  simp [htarget, htarget', PlannedImport.move, hentry]

end Hook.Stylesheets
end StyleBundler
