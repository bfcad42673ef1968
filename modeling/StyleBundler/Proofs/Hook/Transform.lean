import StyleBundler.Proofs.Edit.Calls
import StyleBundler.Proofs.Hook.Stylesheets
import StyleBundler.Proofs.Import.Extent

/-!
What the hook for modules does, and what it leaves alone. It reports each computed import once, as
it is written, whatever comes of the others. It looks at files for the specifiers of sites only
(`transform_congr`), and new code is the old one with those specifiers replaced and nothing else.
-/

namespace StyleBundler

open Import Script

namespace AssetStore

variable {t t' : FileTree} {path : Path}

theorem fetch_congr (h : t.readText path = t'.readText path) (f : Option ContentTransform) :
    fetch t f path = fetch t' f path := by
  rw [fetch, fetch, h]

theorem load_congr (s : AssetStore) (h : t.readText path = t'.readText path)
    (f : Option ContentTransform) : s.load t f path = s.load t' f path := by
  rw [load, load, fetch_congr h, fetchRuns, fetchRuns, h]

theorem loadEach_congr {paths : List Path} (h : ∀ p ∈ paths, t.readText p = t'.readText p)
    (s : AssetStore) (f : Option ContentTransform) : s.loadEach t f paths = s.loadEach t' f paths := by
  induction paths generalizing s with
  | nil => rfl
  | cons path paths ih =>
      obtain ⟨hpath, hpaths⟩ := List.forall_mem_cons.mp h
      simp only [loadEach, load_congr s hpath f, ih hpaths]

end AssetStore

namespace Import.Classification

def isCss : Classification → Bool
  | .css _ => true
  | _ => false

def isUnsupported : Classification → Bool
  | .unsupported _ => true
  | _ => false

def site? : Classification → Option Site
  | .css site => some site
  | _ => none

def diagnostic? : Classification → Option Diagnostic
  | .unsupported d => some d
  | _ => none

theorem isSome_site? (c : Classification) : c.site?.isSome = c.isCss := by cases c <;> rfl

theorem isSome_diagnostic? (c : Classification) : c.diagnostic?.isSome = c.isUnsupported := by
  cases c <;> rfl

theorem site?_eq_some_iff {c : Classification} {site : Site} :
    c.site? = some site ↔ c = .css site := by
  cases c <;> simp [site?]

theorem diagnostic?_eq_some_iff {c : Classification} {d : Diagnostic} :
    c.diagnostic? = some d ↔ c = .unsupported d := by
  cases c <;> simp [diagnostic?]

end Import.Classification

namespace Hook.Stylesheets

/-- Two file trees that lead the sites of a module to the same files, with the same texts. -/
def Alike (t t' : FileTree) (importer : Path) (found : List Site) : Prop :=
  ∀ site ∈ found,
    Resolve.stylesheet t site.specifier importer = Resolve.stylesheet t' site.specifier importer ∧
      ∀ p, Resolve.stylesheet t site.specifier importer = .ok p → t.readText p = t'.readText p

theorem Located.mem_of_mem_paths {p : Path} {outcomes : List (Except StyleError Path)}
    (h : p ∈ (Located.ofList outcomes).paths) : .ok p ∈ outcomes := by
  induction outcomes with
  | nil => cases h
  | cons outcome outcomes ih =>
      cases outcome with
      | error e => cases h
      | ok path =>
          rcases List.mem_cons.mp h with rfl | h
          · exact List.mem_cons_self
          · exact List.mem_cons_of_mem _ (ih h)

section Congruence

variable {t t' : FileTree} {path : Path} {found : List Site}

theorem locate_congr (h : Alike t t' path found) : locate t path found = locate t' path found := by
  rw [locate, locate]
  exact congrArg Located.ofList (List.map_congr_left fun site hsite => (h site hsite).1)

theorem load_congr (h : Alike t t' path found) (s : Stylesheets) (c : Context) (code : String) :
    s.load t c code path found = s.load t' c code path found := by
  have hread : ∀ p ∈ (locate t' path found).paths, t.readText p = t'.readText p := by
    intro p hp
    rw [← locate_congr h] at hp
    obtain ⟨site, hsite, hp⟩ := List.mem_map.mp (Located.mem_of_mem_paths hp)
    exact (h site hsite).2 p hp
  unfold load
  simp only [locate_congr h, AssetStore.loadEach_congr hread]

end Congruence

/-- The hook looks at nothing but what the sites of the module lead to. -/
theorem transform_congr {t t' : FileTree} {path : Path} {code : String} (s : Stylesheets)
    (c : Context)
    (h : Alike t t' path
      (sites (classifyModule s.options.ignoredSchemes code path.moduleId))) :
    s.transform t c code path = s.transform t' c code path := by
  unfold transform
  dsimp only
  split
  · rfl
  · exact load_congr h s _ code

theorem diagnostics_publish (c : Context) (assets : List Asset) :
    (c.publish assets).diagnostics = c.diagnostics := by
  rw [Context.publish]
  induction assets generalizing c with
  | nil => rfl
  | cons a assets ih => exact ih (c.emitAsset a.name a.content)

theorem diagnostics_load (s : Stylesheets) (t : FileTree) (c : Context) (code : String)
    (path : Path) (found : List Site) :
    (s.load t c code path found).2.2.diagnostics = c.diagnostics := by
  unfold load
  dsimp only
  split
  · rfl
  · exact diagnostics_publish c _

/-- The hook reports the same whatever comes of the sites. -/
theorem diagnostics_transform (s : Stylesheets) (t : FileTree) (c : Context) (code : String)
    (path : Path) :
    (s.transform t c code path).2.2.diagnostics = c.diagnostics ++
      diagnostics (classifyModule s.options.ignoredSchemes code path.moduleId) := by
  unfold transform
  dsimp only
  split
  · rfl
  · exact diagnostics_load s t _ code path _

/-- Without a site a module is skipped, and only its reports are noted. -/
theorem transform_of_sites_eq_nil {s : Stylesheets} {code : String} {path : Path}
    (h : sites (classifyModule s.options.ignoredSchemes code path.moduleId) = [])
    (t : FileTree) (c : Context) :
    s.transform t c code path = (.ok .skip, s,
      c.report (diagnostics (classifyModule s.options.ignoredSchemes code path.moduleId))) := by
  simp only [transform, h]

/-- What a function picks from a list stands entry by entry beside what it picked it from. -/
theorem forall₂_filterMap {α β : Type} {f : α → Option β} {R : α → β → Prop} {xs : List α}
    (h : ∀ x ∈ xs, ∀ y, f x = some y → R x y) :
    List.Forall₂ R (xs.filter fun x => (f x).isSome) (xs.filterMap f) := by
  induction xs with
  | nil => exact .nil
  | cons x xs ih =>
      obtain ⟨hx, hxs⟩ := List.forall_mem_cons.mp h
      cases hpick : f x with
      | none => simpa [List.filter_cons, hpick] using ih hxs
      | some y => simpa [List.filter_cons, hpick] using ⟨hx y hpick, ih hxs⟩

section Nodes

variable {schemes : List String} {code moduleId : String}

theorem filterMap_classifyModule {β : Type} {pick : Classification → Option β}
    (h : pick .notCss = none) :
    (classifyModule schemes code moduleId).filterMap pick =
      (importNodes code).filterMap fun n => pick (classify schemes code moduleId n) := by
  rw [classifyModule, List.filterMap_filter, List.filterMap_map]
  refine List.filterMap_congr ?_
  intro n _
  by_cases hn : classify schemes code moduleId n = .notCss
  · simp [hn, h]
  · simp [hn]

theorem sites_eq :
    sites (classifyModule schemes code moduleId) =
      (importNodes code).filterMap fun n => (classify schemes code moduleId n).site? :=
  filterMap_classifyModule rfl

theorem diagnostics_eq :
    diagnostics (classifyModule schemes code moduleId) =
      (importNodes code).filterMap fun n => (classify schemes code moduleId n).diagnostic? :=
  filterMap_classifyModule rfl

/-- A computed import is a call, and its report shows it as it is written. -/
theorem slice?_of_classify_eq_unsupported {n : ImportNode} {d : Diagnostic}
    (hn : n ∈ importNodes code) (h : classify schemes code moduleId n = .unsupported d) :
    d.moduleId = moduleId ∧ Text.slice? code.toList n.span = some d.slice.toList := by
  rw [ImportNode.classify_eq] at h
  split at h
  · cases n with
    | declaration decl =>
        simp only [ImportNode.specifier, classifySpecifier, specifierText?] at h
        split at h <;> cases h
    | call call =>
        obtain ⟨part, hpart⟩ := exists_slice_call hn
        rw [classifySpecifier] at h
        split at h
        · cases h
          refine ⟨rfl, ?_⟩
          simp only [ImportNode.span, Text.slice, hpart, Option.getD_some, String.toList_ofList]
        · split at h <;> cases h
  · cases h

end Nodes

/-- Two lists tied to a third one in between, entry by entry. -/
theorem forall₂_zip_map {α β γ δ : Type} {R : α → β → Prop} {Q : β → γ → Prop} {xs : List α}
    {ys : List β} {zs : List γ} (f : β × γ → δ) (h : List.Forall₂ R xs ys)
    (h' : List.Forall₂ Q ys zs) :
    List.Forall₂ (fun x w => ∃ y z, R x y ∧ Q y z ∧ w = f (y, z)) xs ((ys.zip zs).map f) := by
  induction h generalizing zs with
  | nil => exact .nil
  | cons hxy _ ih =>
      cases h' with
      | cons hyz h' => exact .cons ⟨_, _, hxy, hyz, rfl⟩ (ih h')

/-- The edit that makes a site import its asset. -/
def siteEdit (x : Site × Asset) : Edit := ⟨x.1.span, "'" ++ x.2.reference ++ "'"⟩

theorem edits_eq_map (parts : List (Site × Asset)) : edits parts = ⟨parts.map siteEdit, []⟩ := by
  rw [edits, Edits.foldl_overwrite parts (fun x => x.1.span) fun x => "'" ++ x.2.reference ++ "'"]
  rfl

/-- New code is the old one with its edits spliced in. -/
theorem exists_splice_of_apply {moduleId code code' : String} {map : Option String}
    {parts : List (Site × Asset)}
    (h : apply moduleId code (edits parts) = .ok (.changed code' map)) :
    Edits.Valid code.toList (parts.map siteEdit) ∧
      Edits.spliceEach code.toList (Edits.ordered (parts.map siteEdit)) = some code'.toList := by
  unfold apply at h
  split at h
  · cases h
  · cases h
  · next r hr =>
      cases h
      obtain ⟨hvalid, body, hbody, hcode⟩ := Edits.exists_splice_of_apply hr
      rw [edits_eq_map] at hvalid hbody hcode
      rw [String.toList_ofList, hcode]
      exact ⟨hvalid, hbody⟩

/-- What the hook makes of a module. The nodes come in source order, and each computed one is
reported once, as it is written, whatever comes of the call. Without a site the hook skips the
module and leaves store and bundle as they are, whatever the file tree. File trees that are alike
for the sites make no difference. New code is the old one with exactly the specifiers of the sites
replaced, each by the quoted reference to the asset loaded for it. -/
theorem transform_specifiers (s : Stylesheets) (t : FileTree) (c : Context) (code : String)
    (path : Path) :
    let classOf := classify s.options.ignoredSchemes code path.moduleId
    ((importNodes code).Pairwise (fun m n => m.span.start < n.span.start) ∧
        ∃ reported,
          (s.transform t c code path).2.2.diagnostics = c.diagnostics ++ reported ∧
          List.Forall₂
            (fun n d => d.moduleId = path.moduleId ∧
              Text.slice? code.toList n.span = some d.slice.toList)
            ((importNodes code).filter fun n => (classOf n).isUnsupported) reported) ∧
      ((∀ n ∈ importNodes code, (classOf n).isCss = false) →
        ∀ t', s.transform t' c code path =
          (.ok .skip, s,
            { c with diagnostics := (s.transform t c code path).2.2.diagnostics })) ∧
      (∀ t', Alike t t' path ((importNodes code).filterMap fun n => (classOf n).site?) →
        s.transform t' c code path = s.transform t c code path) ∧
      ∀ code' map s' c', s.transform t c code path = (.ok (.changed code' map), s', c') →
        ∃ es,
          List.Forall₂
            (fun n e => ∃ site p a, classOf n = .css site ∧
              Resolve.stylesheet t site.specifier path = .ok p ∧ s'.store.loaded? p = some a ∧
              e = ⟨n.specifier.span, "'" ++ a.reference ++ "'"⟩)
            ((importNodes code).filter fun n => (classOf n).isCss) es ∧
          Edits.Valid code.toList es ∧
          Edits.spliceEach code.toList (Edits.ordered es) = some code'.toList := by
  intro classOf
  refine ⟨⟨pairwise_importNodes code, _, diagnostics_transform s t c code path, ?reports⟩, ?skips,
    ?alike, ?changed⟩
  case reports =>
    simp only [diagnostics_eq, ← Classification.isSome_diagnostic?]
    refine forall₂_filterMap ?_
    intro n hn d hd
    exact slice?_of_classify_eq_unsupported hn (Classification.diagnostic?_eq_some_iff.mp hd)
  case skips =>
    intro hnone t'
    have hsites : sites (classifyModule s.options.ignoredSchemes code path.moduleId) = [] := by
      rw [sites_eq, List.filterMap_eq_nil_iff]
      intro n hn
      rw [← Option.not_isSome_iff_eq_none, Classification.isSome_site?, hnone n hn]
      exact Bool.false_ne_true
    rw [transform_of_sites_eq_nil hsites, diagnostics_transform]
    rfl
  case alike =>
    intro t' halike
    rw [← sites_eq] at halike
    exact (transform_congr s c halike).symm
  case changed =>
    intro code' map s' c' h
    obtain ⟨assets, hassets, happly⟩ := exists_assets_of_transform h
    obtain ⟨hvalid, hspliced⟩ := exists_splice_of_apply happly
    refine ⟨_, ?_, hvalid, hspliced⟩
    have hsites : List.Forall₂ (fun n site => classOf n = .css site)
        ((importNodes code).filter fun n => (classOf n).isCss)
        (sites (classifyModule s.options.ignoredSchemes code path.moduleId)) := by
      simp only [sites_eq, ← Classification.isSome_site?]
      exact forall₂_filterMap fun n _ site hsite => Classification.site?_eq_some_iff.mp hsite
    refine (forall₂_zip_map siteEdit hsites hassets).imp ?_
    rintro n e ⟨site, a, hsite, ha, rfl⟩
    obtain ⟨p, hp, hloaded⟩ := exists_path_of_assetOf? ha
    refine ⟨site, p, a, hsite, hp, hloaded, ?_⟩
    rw [siteEdit, (ImportNode.literal?_of_classify hsite).1]

/-- A stylesheet, a computed import and an ignored one, with any other files beside. -/
theorem transform_specifiers_mixed :
    let tree := fun extra => (⟨(["a.css"], .file ".a\x7b\x7d".toUTF8) :: extra, []⟩ : FileTree)
    let computed := "import(x, \x7b with: \x7b type: 'css' \x7d \x7d)"
    let front := "import a from "
    let back := " with \x7b type: 'css' \x7d;\n" ++ computed ++
      ";\nimport('http://e/b.css', \x7b with: \x7b type: 'css' \x7d \x7d);\n"
    let code := front ++ "'./a.css'" ++ back
    (∃ code' map s' c' a, s'.store.loaded? ⟨"/a.css"⟩ = some a ∧
      (∀ extra, (ofOptions .standard).transform (tree extra) .empty code ⟨"/main.js"⟩ =
        (.ok (.changed code' map), s', c')) ∧
      c'.diagnostics.map (·.slice) = [computed] ∧
      code' = front ++ ("'" ++ a.reference ++ "'") ++ back) ∧
    ∀ t, ((ofOptions .standard).transform t .empty computed ⟨"/main.js"⟩).1 = .ok .skip := by
  intro tree computed front back code
  let path : Path := ⟨"/a.css"⟩
  let site : Site := ⟨.static (some "a"), .literal, "./a.css", ⟨14, 23⟩, "/main.js"⟩
  let reported : Diagnostic := ⟨"/main.js", .identifier, computed⟩
  have hclasses : (importNodes code).map (classify defaultSchemes code "/main.js") =
      [.css site, .unsupported reported, .ignored "http://e/b.css"] := by decide +kernel
  have hspans : (importNodes code).map ImportNode.span = [⟨0, 45⟩, ⟨46, 82⟩, ⟨84, 135⟩] := by
    decide +kernel
  have hnul : ("/a.css".toList.contains '\x00') = false := by decide
  have hresolve : ∀ extra, Resolve.stylesheet (tree extra) "./a.css" ⟨"/main.js"⟩ = .ok path := by
    intro extra
    have hfile : (tree extra).isFile path = true := by
      simp only [FileTree.isFile, FileTree.locate, FileTree.checkPath, FileTree.trace, path, hnul]
      rfl
    have hpath : ((Resolve.directoryOf ⟨"/main.js"⟩).join ⟨"./a.css"⟩).normalize = path := by
      decide +kernel
    have hbare : Resolve.isBare "./a.css" = false := by decide +kernel
    simp only [Resolve.stylesheet, hbare, hpath, hfile, if_true]
    rfl
  have hread : ∀ extra, (tree extra).readText path = .ok ".a\x7b\x7d" := by
    intro extra
    simp only [FileTree.readText, FileTree.locate, FileTree.checkPath, FileTree.trace, path, hnul]
    rfl
  have hfetch : AssetStore.fetch (tree []) none path = .ok ".a\x7b\x7d" := by
    simp only [AssetStore.fetch, hread]
  have hsites : sites (classifyModule defaultSchemes code "/main.js") = [site] := by
    rw [classifyModule, hclasses]
    rfl
  have hfetched : ∀ p ∈ [path], ∃ content, AssetStore.fetch (tree []) none p = .ok content := by
    intro p hp
    exact ⟨_, List.mem_singleton.mp hp ▸ hfetch⟩
  have hresolved : ([site].map fun site =>
      Resolve.stylesheet (tree []) site.specifier ⟨"/main.js"⟩) = [path].map .ok := by
    simp only [List.map_cons, List.map_nil, site, hresolve]
  obtain ⟨code', map, s', c', h⟩ := exists_transform_changed (ofOptions .standard) (tree []) .empty
    code ⟨"/main.js"⟩ hsites (List.cons_ne_nil _ _) hresolved hfetched (by decide +kernel)
    (by decide +kernel)
  obtain ⟨⟨-, reports, hdiagnostics, hreports⟩, -, halike, hchanged⟩ :=
    transform_specifiers (ofOptions .standard) (tree []) .empty code ⟨"/main.js"⟩
  obtain ⟨es, hes, -, hspliced⟩ := hchanged code' map s' c' h
  obtain ⟨n₁, n₂, n₃, hnodes⟩ : ∃ n₁ n₂ n₃, importNodes code = [n₁, n₂, n₃] :=
    List.length_eq_three.mp (by simpa using congrArg List.length hspans)
  rw [hnodes] at hclasses hspans hreports halike hes
  simp only [List.map_cons, List.map_nil, List.cons.injEq, and_true] at hclasses hspans
  obtain ⟨hn₁, hn₂, hn₃⟩ := hclasses
  have hschemes : (ofOptions .standard).options.ignoredSchemes = defaultSchemes := rfl
  have hid : (⟨"/main.js"⟩ : Path).moduleId = "/main.js" := rfl
  simp only [hschemes, hid, List.filter_cons, List.filter_nil, List.filterMap_cons,
    List.filterMap_nil, hn₁, hn₂, hn₃, Classification.isUnsupported, Classification.isCss,
    Classification.site?, if_true, if_false, Bool.false_eq_true] at hreports halike hes
  cases hes with
  | cons he hnil =>
  cases hnil
  obtain ⟨_, p, a, hcss, hp, hloaded, rfl⟩ := he
  cases hn₁.symm.trans hcss
  cases (hresolve []).symm.trans hp
  refine ⟨⟨code', map, s', c', a, hloaded, ?alike, ?reports, ?code⟩, ?skips⟩
  case alike =>
    intro extra
    rw [halike (tree extra) ?_, h]
    intro x hx
    rw [List.mem_singleton.mp hx, hresolve, hresolve]
    refine ⟨rfl, ?_⟩
    rintro _ ⟨⟩
    rw [hread, hread]
  case reports =>
    cases hreports with
    | cons hd hnil =>
    cases hnil
    have hslice : Text.slice? code.toList ⟨46, 82⟩ = some computed.toList := by decide +kernel
    rw [hspans.2.1, hslice] at hd
    rw [h] at hdiagnostics
    rw [hdiagnostics, String.toList_injective (Option.some.inj hd.2)]
    rfl
  case code =>
    have hspan : n₁.specifier.span = ⟨14, 23⟩ := (ImportNode.literal?_of_classify hn₁).1
    have hcode : code.toList = front.toList ++ ("'./a.css'".toList ++ back.toList) := by
      simp only [code, String.toList_append, List.append_assoc]
    have horder : Edits.ordered [⟨n₁.specifier.span, "'" ++ a.reference ++ "'"⟩] =
        [⟨n₁.specifier.span, "'" ++ a.reference ++ "'"⟩] :=
      List.mergeSort_of_pairwise (List.pairwise_singleton _ _)
    rw [horder, hcode, hspan] at hspliced
    have hfront : Text.byteLength front.toList = 14 := by decide +kernel
    have hspecifier : 14 + Text.byteLength "'./a.css'".toList = 23 := by decide +kernel
    have hsplice := @Edit.splice?_append front.toList "'./a.css'".toList back.toList
      ⟨⟨14, 23⟩, "'" ++ a.reference ++ "'"⟩ hfront hspecifier
    apply String.toList_injective
    rw [Option.some.inj (hspliced.symm.trans hsplice)]
    simp only [String.toList_append]
  case skips =>
    intro t
    obtain ⟨-, hskips, -⟩ :=
      transform_specifiers (ofOptions .standard) t .empty computed ⟨"/main.js"⟩
    rw [hskips ?_ t]
    have hclass : (importNodes computed).map (fun n =>
        (classify defaultSchemes computed "/main.js" n).isCss) = [false] := by decide +kernel
    intro n hn
    have hmem := List.mem_map_of_mem hn (f := fun n =>
      (classify defaultSchemes computed "/main.js" n).isCss)
    rw [hclass] at hmem
    exact List.mem_singleton.mp hmem

end Hook.Stylesheets
end StyleBundler
