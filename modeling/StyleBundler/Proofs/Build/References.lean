import StyleBundler.Proofs.Build.Publication
import StyleBundler.Proofs.Build.Units
import StyleBundler.Proofs.Hook.Stylesheets
import StyleBundler.Proofs.Pack.Load

/-!
No reference that a build writes leads nowhere. Without packing each site of a module refers to an
asset that is published with the content of its stylesheet. With packing a unit that has an artifact
loads it first, and the artifact is published as it was packed; what was staged for packing is not
(`references_published`).
-/

namespace StyleBundler

theorem startsWith_iff {s front : String} :
    s.startsWith front = true ↔ front.toList <+: s.toList := by
  rw [String.startsWith_eq_startsWith_toSlice, String.Slice.startsWith_string_iff,
    String.copy_toSlice]

namespace Asset

theorem startsWith_nameOf (hash : String) :
    (nameOf true hash).startsWith stagingMark = true := by
  rw [startsWith_iff, nameOf, if_pos rfl]
  simp only [String.toList_append, List.append_assoc]
  exact List.prefix_append _ _

/-- An asset has not the name of a unit's file. -/
theorem nameOf_ne_fileName (staging : Bool) (hash : String) (unit : Chunk) :
    nameOf staging hash ≠ unit.fileName := by
  intro h
  have hend := congrArg (fun s : String => s.toList.reverse.take 3) h
  simp [nameOf, Chunk.fileName] at hend

theorem nameOf_ne_manifestName (staging : Bool) (hash : String) :
    nameOf staging hash ≠ Build.manifestName := by
  intro h
  have hend := congrArg (fun s : String => s.toList.reverse.take 3) h
  simp [nameOf, Build.manifestName] at hend

end Asset

namespace Artifact

theorem startsWith_ofSource (source extension : String) :
    (ofSource source extension).name.startsWith Asset.stagingMark = false := by
  rw [← Bool.not_eq_true, startsWith_iff]
  rintro ⟨rest, hrest⟩
  have hfirst := congrArg List.head? hrest
  simp [ofSource, Digest.fileNameText, Digest.fileName, baseName, Asset.stagingMark] at hfirst

theorem ofSource_ne_manifestName (source extension : String) :
    (ofSource source extension).name ≠ Build.manifestName := by
  intro h
  have hfirst := congrArg (fun s : String => s.toList.head?) h
  simp [ofSource, Digest.fileNameText, Digest.fileName, baseName, Build.manifestName] at hfirst

/-- Artifacts of one mode share a name only when their sources share a hash. -/
theorem shortHashText_eq_of_name_eq {source source' extension : String}
    (h : (ofSource source extension).name = (ofSource source' extension).name) :
    Digest.shortHashText source = Digest.shortHashText source' := by
  have hchars := congrArg String.toList h
  simp only [ofSource, Digest.fileNameText, Digest.fileName, String.toList_append,
    List.append_assoc, List.append_cancel_left_eq, List.append_cancel_right_eq] at hchars
  exact String.toList_injective hchars

/-- No two sources that differ have the same hash. -/
def SourcesApart (artifacts : List Artifact) : Prop :=
  ∀ a ∈ artifacts, ∀ b ∈ artifacts,
    Digest.shortHashText a.source = Digest.shortHashText b.source → a.source = b.source

instance (artifacts : List Artifact) : Decidable (SourcesApart artifacts) :=
  inferInstanceAs (Decidable (∀ a ∈ artifacts, ∀ b ∈ artifacts, _ → _))

end Artifact

theorem PackedUnit.exists_eq_ofSource {store : AssetStore} {mode : PackMode}
    {keyword : Script.AttributeKeyword} {code : String} {u : PackedUnit} {a : Artifact}
    (h : ofCode store mode keyword code = .ok (some u)) (ha : u.artifact = some a) :
    ∃ source, a = .ofSource source mode.extension := by
  cases mode with
  | combined =>
      obtain ⟨-, hartifact⟩ := of_ofCode_combined h
      exact ⟨_, Option.some.inj (ha.symm.trans hartifact)⟩
  | exportedModules =>
      obtain ⟨-, hartifact, -⟩ := of_ofCode_exported h
      exact ⟨_, Exported.eq_ofSource_of_artifact? (hartifact.symm.trans ha)⟩

namespace Hook

open Import Script

variable {t : FileTree} {o : StyleOptions} {path : Path} {code : String} {change : Change}

/-- What has become of an import: if it loads a stylesheet, its specifier leads to the asset now. -/
def IsRedirected (t : FileTree) (o : StyleOptions) (path : Path) (code : String)
    (n n' : ImportNode) : Prop :=
  ∀ site, classify o.ignoredSchemes code path.moduleId n = .css site →
    ∃ a, assetFor t o path site = .ok a ∧ specifierText? n'.specifier = some a.reference

theorem mem_sitesOf_of_classify {n : ImportNode} (hn : n ∈ importNodes code) {site : Site}
    (h : classify o.ignoredSchemes code path.moduleId n = .css site) : site ∈ sitesOf o path code :=
  Stylesheets.mem_sites.mpr ⟨n, hn, h⟩

/-- A module that is rewritten keeps its imports, and each of its sites is redirected. -/
theorem forall₂_isRedirected (h : rewriting t o path code = .ok change) :
    List.Forall₂ (IsRedirected t o path code) (importNodes code)
      (importNodes (change.codeFor code)) := by
  have hempty : Agree t (Stylesheets.ofOptions o).options [] (Stylesheets.ofOptions o).store
      Context.empty.bundle := Agree.empty t o
  obtain ⟨s', c', htransform⟩ := Stylesheets.transform_of_rewriting hempty h
  cases change with
  | skip =>
      have hnone : sitesOf o path code = [] := Stylesheets.sites_of_transform_skip htransform
      refine List.forall₂_same.mpr fun n hn site hcss => ?_
      have hsite := mem_sitesOf_of_classify hn hcss
      rw [hnone] at hsite
      cases hsite
  | changed code' map =>
      obtain ⟨-, hloaded, moved, hnodes⟩ :=
        Stylesheets.exists_importNodes_of_changed (.empty _) htransform
      obtain ⟨-, more, hagree, -⟩ := Stylesheets.rewriting_of_transform hempty htransform
      rw [Change.codeFor, hnodes, List.forall₂_map_right_iff, List.forall₂_same]
      intro n hn site hcss
      obtain ⟨a, ha⟩ := hloaded site (mem_sitesOf_of_classify hn hcss)
      refine ⟨a, (hagree.assetFor_of_assetOf? ha).2, ?_⟩
      have htarget : Stylesheets.target? s'.store t path o.ignoredSchemes code n =
          some a.reference := Stylesheets.target?_of_css hcss ha
      rw [show (Stylesheets.ofOptions o).options = o from rfl, htarget, ImportNode.retarget,
        Option.elim_some, ImportNode.specifierText?_withSpecifier]

end Hook

namespace Build

open Hook FileTree Import Script

variable {f : ContentTransform} {t t' : FileTree} {c : Config} {r : BuildRequest}
  {g g' : ModuleGraph} {p : Pipeline} {s : Stylesheets} {root : Path} {cs : List Chunk}
  {context : Context} {unit : Chunk} {u : PackedUnit} {a : Artifact} {report : BuildReport}

/-- The assets that the sites of all modules import. -/
def loadedAssets (t : FileTree) (o : StyleOptions) (g : ModuleGraph) : List Asset :=
  g.nodes.flatMap fun n =>
    (sitesOf o n.module.path n.module.source).filterMap fun site =>
      (assetFor t o n.module.path site).toOption

theorem mem_loadedAssets {o : StyleOptions} {a : Asset} :
    a ∈ loadedAssets t o g ↔ ∃ n ∈ g.nodes, IsImportedBy t o n a := by
  simp only [loadedAssets, List.mem_flatMap, List.mem_filterMap, toOption_eq_some_iff,
    IsImportedBy]

/-- The unit as packing leaves it, when it imports an asset. -/
def packing? (p : Pipeline) (root : Path) (g : ModuleGraph) (unit : Chunk) : Option PackedUnit :=
  match p.plugins with
  | [.stylesheets s] =>
      s.options.bundle.bind fun mode =>
        (unitCode root g unit).toOption.bind fun code =>
          (PackedUnit.ofCode s.store mode s.options.keyword code).toOption.join
  | _ => none

/-- The artifacts of all units. -/
def artifacts (p : Pipeline) (root : Path) (g : ModuleGraph) (cs : List Chunk) : List Artifact :=
  cs.filterMap fun unit => (packing? p root g unit).bind PackedUnit.artifact

theorem packing?_eq_some_iff (hp : p.plugins = [.stylesheets s]) :
    packing? p root g unit = some u ↔ ∃ mode code, s.options.bundle = some mode ∧
      unitCode root g unit = .ok code ∧
      PackedUnit.ofCode s.store mode s.options.keyword code = .ok (some u) := by
  simp [packing?, hp, Option.bind_eq_some_iff, Option.join_eq_some_iff, toOption_eq_some_iff]

/-- Only a unit with a module can be packed. -/
theorem moduleIds_ne_nil_of_packing (h : packing? p root g unit = some u) :
    unit.moduleIds ≠ [] := by
  intro hnil
  unfold packing? at h
  split at h
  · have hcode : unitCode root g unit = .ok "" := by
      rw [unitCode, hnil]
      rfl
    have hnodes : importNodes "" = [] := by decide +kernel
    simp [hcode, PackedUnit.ofCode, Plan.scan, hnodes, Except.toOption] at h
  · cases h

theorem isCodeOf_of_packing (hp : p.plugins = [.stylesheets s]) (hunit : unit ∈ cs)
    (h : packing? p root g unit = some u) :
    ∃ code, IsCodeOf root g cs unit code ∧ s.finished code = .ok (u.code, u.artifact) := by
  have hids := moduleIds_ne_nil_of_packing h
  obtain ⟨mode, code, hmode, hcode, hpacked⟩ := (packing?_eq_some_iff hp).mp h
  exact ⟨code, ⟨hunit, hids, hcode⟩, by simp only [Stylesheets.finished, hmode, hpacked]⟩

/-- An artifact that comes with the finished code of a unit comes from packing it. -/
theorem exists_packing_of_finished (hp : p.plugins = [.stylesheets s]) {code code' : String}
    (hcode : IsCodeOf root g cs unit code) (h : s.finished code = .ok (code', some a)) :
    ∃ u, packing? p root g unit = some u ∧ u.artifact = some a := by
  unfold Stylesheets.finished at h
  split at h
  · cases h
  · next mode hmode =>
      split at h
      · cases h
      · cases h
      · next packed hpacked =>
          obtain ⟨-, hartifact⟩ := Prod.mk.inj (Except.ok.inj h)
          exact ⟨packed, (packing?_eq_some_iff hp).mpr ⟨mode, code, hmode, hcode.2.2, hpacked⟩,
            hartifact⟩

theorem mem_artifacts :
    a ∈ artifacts p root g cs ↔ ∃ unit ∈ cs, ∃ u, packing? p root g unit = some u ∧
      u.artifact = some a := by
  simp only [artifacts, List.mem_filterMap, Option.bind_eq_some_iff]

/-- All artifacts of a build come from one mode. -/
theorem exists_extension (hp : p.plugins = [.stylesheets s]) :
    ∃ extension, ∀ a ∈ artifacts p root g cs, ∃ source, a = .ofSource source extension := by
  cases hmode : s.options.bundle with
  | none =>
      refine ⟨"", fun a ha => ?_⟩
      obtain ⟨unit, -, u, hpacked, -⟩ := mem_artifacts.mp ha
      obtain ⟨mode, -, hsome, -⟩ := (packing?_eq_some_iff hp).mp hpacked
      cases hmode.symm.trans hsome
  | some mode =>
      refine ⟨mode.extension, fun a ha => ?_⟩
      obtain ⟨unit, -, u, hpacked, hartifact⟩ := mem_artifacts.mp ha
      obtain ⟨mode', code, hsome, -, hcode⟩ := (packing?_eq_some_iff hp).mp hpacked
      obtain rfl := Option.some.inj (hmode.symm.trans hsome)
      exact PackedUnit.exists_eq_ofSource hcode hartifact

/-- No unit is written under the name of an artifact. -/
def NamesApart (c : Config) (packed : List Artifact) : Prop :=
  ∀ e ∈ c.entrypoints, ∀ a ∈ packed, e.1 ++ ".js" ≠ a.name

instance (c : Config) (packed : List Artifact) : Decidable (NamesApart c packed) :=
  inferInstanceAs (Decidable (∀ e ∈ c.entrypoints, ∀ a ∈ packed, _))

theorem NamesApart.fileName_ne {packed : List Artifact} (h : NamesApart c packed)
    (hchunks : chunks t g c.entrypointPaths = .ok cs) (hunit : unit ∈ cs) (ha : a ∈ packed) :
    unit.fileName ≠ a.name := by
  have hname : unit.name ∈ c.entrypointPaths.map Prod.fst :=
    (sublist_names_of_chunks hchunks).subset (List.mem_map_of_mem hunit)
  rw [map_fst_entrypointPaths] at hname
  obtain ⟨e, he, heq⟩ := List.mem_map.mp hname
  rw [Chunk.fileName, ← heq]
  exact h e he a ha

/-- Each artifact is published with its source. -/
theorem Phases.lookup_artifact (h : Phases f t c r g g' p cs context)
    (hnames : NamesApart c (artifacts p c.root g' cs))
    (hapart : Artifact.SourcesApart (artifacts p c.root g' cs))
    (ha : a ∈ artifacts p c.root g' cs) :
    context.bundle.lookup a.name = some ⟨.asset, a.source⟩ ∧ a.name ≠ manifestName := by
  obtain ⟨s, -, p', hp, -, -, -, hfinished, rfl⟩ := h.exists_finished
  obtain ⟨extension, hextension⟩ := exists_extension hp
  have hsource : ∀ b ∈ artifacts p c.root g' cs, a.name = b.name → b.source = a.source := by
    intro b hb hname
    obtain ⟨source, rfl⟩ := hextension a ha
    obtain ⟨source', rfl⟩ := hextension b hb
    exact (hapart _ ha _ hb (Artifact.shortHashText_eq_of_name_eq hname)).symm
  obtain ⟨source, hof⟩ := hextension a ha
  constructor
  · obtain ⟨unit, hunit, u, hpacked, hartifact⟩ := mem_artifacts.mp ha
    obtain ⟨code, hcode, hout⟩ := isCodeOf_of_packing hp hunit hpacked
    have hmark : a.name.startsWith Asset.stagingMark = false := by
      rw [hof]
      exact Artifact.startsWith_ofSource source extension
    rw [lookup_generate hfinished.plugins, if_neg (by simp [hmark])]
    refine hfinished.lookup_of_file ⟨unit, code, hcode,
      mem_filesOf.mpr ⟨u.code, u.artifact, hout, .inl ⟨a, hartifact, rfl, rfl⟩⟩⟩ ?_
    rintro other ⟨unit', code', hcode', hmem⟩
    obtain ⟨code'', artifact?, hout', ⟨b, rfl, hname, rfl⟩ | ⟨hname, rfl⟩⟩ := mem_filesOf.mp hmem
    · obtain ⟨u', hpacked', hartifact'⟩ := exists_packing_of_finished hp hcode' hout'
      rw [hsource b (mem_artifacts.mpr ⟨unit', hcode'.1, u', hpacked', hartifact'⟩) hname]
    · exact absurd hname.symm (hnames.fileName_ne h.divided hcode'.1 ha)
  · rw [hof]
    exact Artifact.ofSource_ne_manifestName source extension

/-- A unit that was packed is published as packing leaves it. -/
theorem Phases.lookup_packedUnit (h : Phases f t c r g g' p cs context)
    (hnames : NamesApart c (artifacts p c.root g' cs)) (hnodup : (c.entrypoints.map Prod.fst).Nodup)
    (hunit : unit ∈ cs) (hpacked : packing? p c.root g' unit = some u)
    (hmark : unit.fileName.startsWith Asset.stagingMark = false) :
    context.bundle.lookup unit.fileName = some ⟨.chunk, u.code⟩ := by
  obtain ⟨s, -, -, hp, -⟩ := h.exists_finished
  obtain ⟨code, hcode, hout⟩ := isCodeOf_of_packing hp hunit hpacked
  rw [← map_fst_entrypointPaths] at hnodup
  refine h.lookup_fileName hnodup hp hcode hout (.inr hmark) ?_
  intro unit' code' code'' b hcode' hout'
  obtain ⟨u', hpacked', hartifact'⟩ := exists_packing_of_finished hp hcode' hout'
  exact hnames.fileName_ne h.divided hunit
    (mem_artifacts.mpr ⟨unit', hcode'.1, u', hpacked', hartifact'⟩)

/-- Without packing each asset is published with its content. -/
theorem Phases.lookup_asset (h : Phases f t c r g g' p cs context)
    (hbundle : (optionsOf f c r).bundle = none)
    (hapart : Asset.ContentsApart (loadedAssets t (optionsOf f c r) g)) {a : Asset}
    (ha : a ∈ loadedAssets t (optionsOf f c r) g) :
    context.bundle.lookup a.name = some ⟨.asset, a.content⟩ ∧ a.name ≠ manifestName := by
  obtain ⟨s, assets, p', hp, hoptions, hagree, hassets, hfinished, rfl⟩ := h.exists_finished
  have hnone : s.options.bundle = none := by rw [hoptions, hbundle]
  have hloaded : ∀ b, b ∈ assets ↔ b ∈ loadedAssets t (optionsOf f c r) g := fun b =>
    (hassets b).trans mem_loadedAssets.symm
  have hmem := (hloaded a).mpr ha
  have hname := (hagree.published a hmem).name_eq
  constructor
  · rw [lookup_generate hfinished.plugins, if_neg (by simp [hnone])]
    -- The only files that were added since are those of the units.
    have hfile : ∀ file, ¬IsFileOfUnit s c.root g' cs a.name file := by
      rintro file ⟨unit, code, -, hadded⟩
      obtain ⟨code', artifact?, hout, hadded⟩ := mem_filesOf.mp hadded
      rw [finished_of_bundle_eq_none hnone] at hout
      cases hout
      obtain ⟨b, hb, -⟩ | ⟨hsame, -⟩ := hadded
      · cases hb
      · exact Asset.nameOf_ne_fileName _ _ unit (hname.symm.trans hsame)
    rw [hfinished.lookup_of_not_file hfile]
    exact hagree.lookup_bundle (fun b hb d hd =>
      hapart b ((hloaded b).mp hb) d ((hloaded d).mp hd)) hmem
  · rw [hname]
    exact Asset.nameOf_ne_manifestName _ _

/-- What a build that packs writes: units, and their artifacts. -/
theorem Phases.of_lookup (h : Phases f t c r g g' p cs context)
    (hbundle : (optionsOf f c r).bundle ≠ none) {name : String} {file : OutputFile}
    (hlookup : context.bundle.lookup name = some file) :
    name.startsWith Asset.stagingMark = false ∧
      (file.kind = .asset → ∃ a ∈ artifacts p c.root g' cs, name = a.name) := by
  obtain ⟨s, assets, p', hp, hoptions, hagree, -, hfinished, rfl⟩ := h.exists_finished
  have hsome : s.options.bundle.isSome = true := by
    rw [hoptions]
    exact Option.isSome_iff_ne_none.mpr hbundle
  rw [lookup_generate hfinished.plugins] at hlookup
  split at hlookup
  · cases hlookup
  · next hkept =>
      have hmark : name.startsWith Asset.stagingMark = false := by
        simpa [hsome] using hkept
      refine ⟨hmark, fun hkind => ?_⟩
      obtain ⟨unit, code, hcode, hmem⟩ | hstaged := hfinished.file_or_lookup hlookup
      · obtain ⟨code', artifact?, hout, ⟨a, rfl, hname, -⟩ | ⟨-, rfl⟩⟩ := mem_filesOf.mp hmem
        · obtain ⟨u, hpacked, hartifact⟩ := exists_packing_of_finished hp hcode hout
          exact ⟨a, mem_artifacts.mpr ⟨unit, hcode.1, u, hpacked, hartifact⟩, hname⟩
        · cases hkind
      · obtain ⟨a, ha, rfl, -⟩ := hagree.files name file hstaged
        rw [(hagree.published a ha).name_eq, ← hoptions, hsome, Asset.startsWith_nameOf] at hmark
        cases hmark

theorem Phases.exists_rewriting (h : Phases f t c r g g' p cs context) {ids : List Nat}
    {m : ScriptModule} (hm : m ∈ ids.filterMap g'.module?) :
    ∃ n ∈ g.nodes, ∃ change,
      rewriting t (optionsOf f c r) n.module.path n.module.source = .ok change ∧
      m = { n.module with transformed := some (change.codeFor n.module.source) } := by
  obtain ⟨hrewritten, -⟩ := isRewritten_of_transformAll h.transformed
  obtain ⟨id, -, hid⟩ := List.mem_filterMap.mp hm
  obtain ⟨n', hn', rfl⟩ := Option.map_eq_some_iff.mp hid
  obtain ⟨n, hn, change, hchange, rfl⟩ :=
    exists_of_forall₂_of_mem hrewritten.flip (List.mem_of_getElem? hn')
  exact ⟨n, hn, change, hchange, rfl⟩

/-- What has become of an import of a module: if it loads a stylesheet, its specifier leads to a
file that the build publishes, and that holds the stylesheet as its transform leaves it. -/
def IsPublishedSite (f : ContentTransform) (t : FileTree) (c : Config) (r : BuildRequest)
    (m : ScriptModule) (n n' : ImportNode) : Prop :=
  ∀ site, classify c.css.ignoredSchemes m.source m.path.moduleId n = .css site →
    ∃ path content name, Resolve.stylesheet t site.specifier m.path = .ok path ∧
      AssetStore.fetch t (optionsOf f c r).transform path = .ok content ∧
      specifierText? n'.specifier = some ("./" ++ name) ∧
      Publishes f t c r name ⟨.asset, content⟩

theorem forall₂_isPublishedSite (h : Phases f t c r g g' p cs context)
    (hbuild : buildWith f t c r = (t', .ok report))
    (hprepare : prepareWith f t c r = .ok (cs, context))
    (hbundle : (optionsOf f c r).bundle = none)
    (hapart : Asset.ContentsApart (loadedAssets t (optionsOf f c r) g)) {ids : List Nat}
    {m : ScriptModule} (hm : m ∈ ids.filterMap g'.module?) :
    List.Forall₂ (IsPublishedSite f t c r m) (importNodes m.source) (importNodes m.code) := by
  obtain ⟨n, hn, change, hchange, rfl⟩ := h.exists_rewriting hm
  have hall := (List.forall₂_and_left _ _).mpr ⟨fun _ h => h, forall₂_isRedirected hchange⟩
  refine hall.imp fun node node' ⟨hnode, hredirected⟩ site hcss => ?_
  obtain ⟨a, ha, hspecifier⟩ := hredirected site hcss
  obtain ⟨hpublished, hresolve⟩ := assetFor_eq_ok_iff.mp ha
  have hloaded : a ∈ loadedAssets t (optionsOf f c r) g :=
    mem_loadedAssets.mpr ⟨n, hn, site, mem_sitesOf_of_classify hnode hcss, ha⟩
  obtain ⟨hlookup, hname⟩ := h.lookup_asset hbundle hapart hloaded
  exact ⟨a.path, a.content, a.name, hresolve, hpublished.fetched, hspecifier,
    publishes_of_lookup hbuild hprepare h.ordered hlookup hname⟩

/-- No reference that a build writes leads nowhere. Without packing each import of a stylesheet
leads to a published file with the content of that stylesheet, unless two contents share a hash.
With packing each unit that has an artifact imports it first, and the artifact is published as it
was packed, unless a unit has its name or two sources share a hash; of the assets that were staged
none is written. -/
theorem references_published (f : ContentTransform) (t : FileTree) (c : Config) (r : BuildRequest)
    {t' : FileTree} {report : BuildReport} (h : buildWith f t c r = (t', .ok report)) :
    ∃ g g' p cs context, Phases f t c r g g' p cs context ∧
      ((optionsOf f c r).bundle = none →
        Asset.ContentsApart (loadedAssets t (optionsOf f c r) g) →
        ∀ unit ∈ cs, ∀ m ∈ unit.moduleIds.filterMap g'.module?,
          List.Forall₂ (IsPublishedSite f t c r m) (importNodes m.source) (importNodes m.code)) ∧
      ((optionsOf f c r).bundle ≠ none →
        (∀ unit ∈ cs, ∀ u a, packing? p c.root g' unit = some u → u.artifact = some a →
          (∃ d, (importNodes u.code).head? = some (.declaration d) ∧ d.source = "./" ++ a.name) ∧
          (NamesApart c (artifacts p c.root g' cs) →
            (Artifact.SourcesApart (artifacts p c.root g' cs) →
              Publishes f t c r a.name ⟨.asset, a.source⟩) ∧
            ((c.entrypoints.map Prod.fst).Nodup →
              unit.fileName.startsWith Asset.stagingMark = false →
              Publishes f t c r unit.fileName ⟨.chunk, u.code⟩))) ∧
        ∀ w ∈ report.outputs, w.name.startsWith Asset.stagingMark = false ∧
          (w.kind = .asset → ∃ a ∈ artifacts p c.root g' cs, w.name = a.name)) := by
  obtain ⟨cs, context, hprepare⟩ := exists_prepareWith h
  obtain ⟨g, g', p, hphases⟩ := exists_phases hprepare
  refine ⟨g, g', p, cs, context, hphases, fun hbundle hapart unit _ m hm =>
    forall₂_isPublishedSite hphases h hprepare hbundle hapart hm, fun hbundle =>
    ⟨fun unit hunit u a hpacked hartifact => ⟨?_, fun hnames => ⟨fun hapart => ?_,
      fun hnodup hmark => ?_⟩⟩, fun w hw => ?_⟩⟩
  · obtain ⟨s, -, -, hp, -⟩ := hphases.exists_finished
    obtain ⟨mode, code, -, -, hpack⟩ := (packing?_eq_some_iff hp).mp hpacked
    exact PackedUnit.exists_head?_importNodes hpack hartifact
  · obtain ⟨hlookup, hname⟩ := hphases.lookup_artifact hnames hapart
      (mem_artifacts.mpr ⟨unit, hunit, u, hpacked, hartifact⟩)
    exact publishes_of_lookup h hprepare hphases.ordered hlookup hname
  · exact publishes_of_lookup h hprepare hphases.ordered
      (hphases.lookup_packedUnit hnames hnodup hunit hpacked hmark) (fileName_ne_manifestName unit)
  · obtain ⟨-, -, -, houtputs⟩ := stored_of_buildWith h hprepare
    rw [houtputs] at hw
    obtain ⟨entry, hentry, rfl⟩ := List.mem_map.mp hw
    exact hphases.of_lookup hbundle (hphases.ordered.lookup_of_mem hentry)

/-- Two scripts that load a stylesheet each. The sources of their artifacts share a hash, as the
stylesheets do not. -/
def sheetProject : FileTree :=
  ⟨[(["a.js"], .file "import s from './a.css' with \x7b type: 'css' \x7d;\n".toUTF8),
    (["b.js"], .file "import s from './b.css' with \x7b type: 'css' \x7d;\n".toUTF8),
    (["a.css"], .file ".iiz\x7b\x7d".toUTF8), (["b.css"], .file ".cuti\x7b\x7d".toUTF8)], []⟩

def sheetConfig (entrypoints : List (String × String)) : Config :=
  ⟨⟨"sheets", "0.1.0"⟩, entrypoints, Config.standardOutput, Config.standardStyles, ⟨"/"⟩⟩

/-- The files that builds of these scripts can have. -/
def sheetNames : List String :=
  ["a.js", "b.js", "bundle-04916fd4.css", "styles-2a4cc1b1.css"]

theorem exists_report_sheets {entrypoints : List (String × String)} {mode? : Option PackMode}
    (hprepare : prepareWith .minify sheetProject (sheetConfig entrypoints) ⟨none, mode?⟩ =
      .ok (cs, context)) (hnames : ∀ name ∈ context.bundle.names, name ∈ sheetNames) :
    ∃ t' report, buildWith .minify sheetProject (sheetConfig entrypoints) ⟨none, mode?⟩ =
      (t', .ok report) := by
  have hdirectory : directoryOf (sheetConfig entrypoints) ⟨none, mode?⟩ =
      (sheetConfig []).outputDirectory := by
    show (sheetConfig entrypoints).outputDirectory = _
    rfl
  have hmake : (sheetProject.makeAll (sheetConfig []).outputDirectory).2.isOk = true := by
    decide +kernel
  have hplaces : ∀ name ∈ manifestName :: sheetNames,
      ((sheetProject.makeAll (sheetConfig []).outputDirectory).1.writePlace?
        ((sheetConfig []).outputDirectory.join ⟨name⟩)).isSome = true := by
    decide +kernel
  cases hresult : sheetProject.makeAll (sheetConfig []).outputDirectory with
  | mk made result =>
      rw [hresult] at hmake hplaces
      cases result with
      | error cause => cases hmake
      | ok _ =>
          refine exists_report hprepare (by rw [hdirectory]; exact hresult) fun name hname => ?_
          rw [hdirectory]
          obtain rfl | hname := List.mem_cons.mp hname
          · exact hplaces _ List.mem_cons_self
          · exact hplaces name (List.mem_cons_of_mem _ (hnames name hname))

theorem run_sheets :
    (phases? .minify sheetProject (sheetConfig [("a", "a.js")]) ⟨none, none⟩).any
      (fun (g, g', _, cs, context) =>
        decide (context.bundle.names = ["a.js", "styles-2a4cc1b1.css"] ∧
          Asset.ContentsApart (loadedAssets sheetProject
            (optionsOf .minify (sheetConfig []) ⟨none, none⟩) g) ∧
          ∃ unit ∈ cs, ∃ m ∈ unit.moduleIds.filterMap g'.module?,
            sitesOf (optionsOf .minify (sheetConfig []) ⟨none, none⟩) m.path m.source ≠ [])) =
      true := by
  decide +kernel

theorem run_sheets_packed :
    (phases? .minify sheetProject (sheetConfig [("a", "a.js")]) ⟨none, some .combined⟩).any
      (fun (_, g', p, cs, context) =>
        decide (context.bundle.names = ["a.js", "bundle-04916fd4.css"] ∧
          NamesApart (sheetConfig [("a", "a.js")]) (artifacts p ⟨"/"⟩ g' cs) ∧
          Artifact.SourcesApart (artifacts p ⟨"/"⟩ g' cs) ∧ artifacts p ⟨"/"⟩ g' cs ≠ [])) =
      true := by
  decide +kernel

theorem run_sheets_collided :
    (phases? .minify sheetProject (sheetConfig [("a", "a.js"), ("b", "b.js")])
      ⟨none, some .combined⟩).any (fun (g, g', p, cs, context) =>
        decide (context.bundle.names = ["a.js", "b.js", "bundle-04916fd4.css"] ∧
          Asset.ContentsApart (loadedAssets sheetProject
            (optionsOf .minify (sheetConfig []) ⟨none, some .combined⟩) g) ∧
          NamesApart (sheetConfig [("a", "a.js"), ("b", "b.js")]) (artifacts p ⟨"/"⟩ g' cs) ∧
          ∃ a ∈ artifacts p ⟨"/"⟩ g' cs,
            context.bundle.lookup a.name ≠ some ⟨.asset, a.source⟩)) = true := by
  decide +kernel

/-- Without packing the site of a script leads to its stylesheet, and with packing the script loads
its artifact. -/
theorem references_published_sheets :
    let c := sheetConfig [("a", "a.js")]
    let r : BuildRequest := ⟨none, none⟩
    let r' : BuildRequest := ⟨none, some .combined⟩
    (∃ g g' p cs context unit m n n' site, Phases .minify sheetProject c r g g' p cs context ∧
      unit ∈ cs ∧ m ∈ unit.moduleIds.filterMap g'.module? ∧ n ∈ importNodes m.source ∧
      n' ∈ importNodes m.code ∧
      classify c.css.ignoredSchemes m.source m.path.moduleId n = .css site ∧
      IsPublishedSite .minify sheetProject c r m n n') ∧
    ∃ g g' p cs context unit u a, Phases .minify sheetProject c r' g g' p cs context ∧
      unit ∈ cs ∧ packing? p c.root g' unit = some u ∧ u.artifact = some a ∧
      (∃ d, (importNodes u.code).head? = some (.declaration d) ∧ d.source = "./" ++ a.name) ∧
      Publishes .minify sheetProject c r' a.name ⟨.asset, a.source⟩ := by
  intro c r r'
  constructor
  · obtain ⟨g, g', p, cs, context, hphases, hfacts⟩ := exists_phases_of_run run_sheets
    obtain ⟨hnames, hapart, unit, hunit, m, hm, hsites⟩ := of_decide_eq_true hfacts
    obtain ⟨t', report, hbuild⟩ := exists_report_sheets hphases.prepareWith_eq (by rw [hnames]; decide)
    obtain ⟨g₁, g₁', p₁, cs₁, context₁, hphases₁, hall, -⟩ :=
      references_published .minify sheetProject c r hbuild
    obtain ⟨rfl, rfl, rfl, rfl, rfl⟩ := hphases.unique hphases₁
    obtain ⟨site, hsite⟩ := List.exists_mem_of_ne_nil _ hsites
    obtain ⟨n, hn, hcss⟩ := Stylesheets.mem_sites.mp hsite
    obtain ⟨n', hn', hpublished⟩ :=
      exists_of_forall₂_of_mem (hall rfl hapart unit hunit m hm) hn
    exact ⟨g, g', p, cs, context, unit, m, n, n', site, hphases, hunit, hm, hn, hn', hcss,
      hpublished⟩
  · obtain ⟨g, g', p, cs, context, hphases, hfacts⟩ := exists_phases_of_run run_sheets_packed
    obtain ⟨hnames, hentries, hapart, hne⟩ := of_decide_eq_true hfacts
    obtain ⟨t', report, hbuild⟩ := exists_report_sheets hphases.prepareWith_eq (by rw [hnames]; decide)
    obtain ⟨g₁, g₁', p₁, cs₁, context₁, hphases₁, -, hall⟩ :=
      references_published .minify sheetProject c r' hbuild
    obtain ⟨rfl, rfl, rfl, rfl, rfl⟩ := hphases.unique hphases₁
    obtain ⟨a, ha⟩ := List.exists_mem_of_ne_nil _ hne
    obtain ⟨unit, hunit, u, hpacked, hartifact⟩ := mem_artifacts.mp ha
    obtain ⟨hloads, hpublished⟩ := (hall (by decide)).1 unit hunit u a hpacked hartifact
    exact ⟨g, g', p, cs, context, unit, u, a, hphases, hunit, hpacked, hartifact, hloads,
      (hpublished hentries).1 hapart⟩

/-- The artifacts of the two scripts have one name, and only one of them is published. -/
theorem artifact_overwritten :
    let c := sheetConfig [("a", "a.js"), ("b", "b.js")]
    let r : BuildRequest := ⟨none, some .combined⟩
    ∃ t' report g g' p cs context unit u a, build sheetProject c r = (t', .ok report) ∧
      Phases .minify sheetProject c r g g' p cs context ∧
      Asset.ContentsApart (loadedAssets sheetProject (optionsOf .minify c r) g) ∧
      NamesApart c (artifacts p c.root g' cs) ∧ unit ∈ cs ∧
      packing? p c.root g' unit = some u ∧ u.artifact = some a ∧
      ¬Publishes .minify sheetProject c r a.name ⟨.asset, a.source⟩ := by
  intro c r
  obtain ⟨g, g', p, cs, context, hphases, hfacts⟩ := exists_phases_of_run run_sheets_collided
  obtain ⟨hnames, hapart, hentries, a, ha, hlookup⟩ := of_decide_eq_true hfacts
  obtain ⟨t', report, hbuild⟩ := exists_report_sheets hphases.prepareWith_eq (by rw [hnames]; decide)
  obtain ⟨unit, hunit, u, hpacked, hartifact⟩ := mem_artifacts.mp ha
  refine ⟨t', report, g, g', p, cs, context, unit, u, a,
    (build_eq _ _ _).trans hbuild, hphases, hapart, hentries, hunit,
    hpacked, hartifact, ?_⟩
  rintro ⟨cs₁, context₁, -, -, hprepare, -, hpublished, -⟩
  cases hphases.prepareWith_eq.symm.trans hprepare
  exact hlookup hpublished

end Build

end StyleBundler
