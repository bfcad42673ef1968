import StyleBundler.Proofs.Build.References

/-!
What a build publishes, against what it lists. Every entrypoint has a unit that is finished
(`Phases.names_chunks`). A build that packs then drops what is named like a staged asset
(`IsPruned`): the stylesheets that were loaded, but also a unit whose entrypoint has such a name,
which the manifest goes on to list (`manifest_published`). Nothing else is dropped, and no artifact
(`Finalises`).
-/

namespace StyleBundler.Build

open Hook FileTree

variable {f : ContentTransform} {t t' : FileTree} {c : Config} {r : BuildRequest}
  {g g' : ModuleGraph} {p p' : Pipeline} {cs : List Chunk} {context : Context} {path place : Path}
  {v : ModuleGraph → Path → Except Failure (Nat × ModuleGraph)} {report : BuildReport}

section Units

/-- A module of the graph is at this place, in some spelling. -/
def Knows (g : ModuleGraph) (place : Path) : Prop := ∃ known ∈ g.places, known.Same place

theorem Knows.mono (h : Knows g place) (hgrown : g.places <+: g'.places) : Knows g' place := by
  obtain ⟨known, hknown, hsame⟩ := h
  exact ⟨known, hgrown.subset hknown, hsame⟩

theorem knows_of_find? {id : Nat} (h : g.find? place = some id) : Knows g place := by
  obtain ⟨hid, hsame, -⟩ := List.findIdx?_eq_some_iff_getElem.mp h
  exact ⟨_, List.mem_map_of_mem (List.getElem_mem hid), of_decide_eq_true hsame⟩

theorem Knows.exists_find? (h : Knows g place) : ∃ id, g.find? place = some id := by
  obtain ⟨known, hknown, hsame⟩ := h
  obtain ⟨n, hn, rfl⟩ := List.mem_map.mp hknown
  cases hfind : g.find? place with
  | some id => exact ⟨id, rfl⟩
  | none => exact absurd hsame (of_decide_eq_false (List.findIdx?_eq_none_iff.mp hfind n hn))

/-- A way to visit files that leaves the modules where they are, and knows the file in the end. -/
def VisitsKnown (t : FileTree) (v : ModuleGraph → Path → Except Failure (Nat × ModuleGraph)) :
    Prop :=
  ∀ {g path id g'}, v g path = .ok (id, g') →
    g.places <+: g'.places ∧ ∃ place, t.canonical path = .ok place ∧ Knows g' place

theorem VisitsKnown.prefix_follow (hv : VisitsKnown t v) {id : Nat} {s : String}
    (h : follow t p v place id g s = .ok g') : g.places <+: g'.places := by
  obtain ⟨-, rfl⟩ | ⟨path, target, g₁, -, hvisit, rfl⟩ := follow_cases h
  · exact List.prefix_rfl
  · rw [places_link]
    exact (hv hvisit).1

theorem VisitsKnown.prefix_foldlM (hv : VisitsKnown t v) {id : Nat} {specifiers : List String}
    (h : specifiers.foldlM (follow t p v place id) g = .ok g') : g.places <+: g'.places := by
  induction specifiers generalizing g with
  | nil =>
      cases h
      exact List.prefix_rfl
  | cons s specifiers ih =>
      rw [List.foldlM_cons, bind_eq_ok_iff] at h
      obtain ⟨g₁, hfollow, hrest⟩ := h
      exact (hv.prefix_follow hfollow).trans (ih hrest)

theorem visit_visitsKnown (t : FileTree) (p : Pipeline) (depth : Nat) :
    VisitsKnown t (visit t p depth) := by
  induction depth with
  | zero =>
      intro g path id g' h
      cases h
  | succ depth ih =>
      intro g path id g' h
      obtain ⟨place, hplace, ⟨hfind, rfl⟩ | ⟨source, -, -, -, hfold⟩⟩ := visit_cases h
      · exact ⟨List.prefix_rfl, place, hplace, knows_of_find? hfind⟩
      · have hgrown := ih.prefix_foldlM hfold
        rw [places_opened] at hgrown
        refine ⟨(List.prefix_append _ _).trans hgrown, place, hplace, place, ?_, .refl place⟩
        exact hgrown.subset (List.mem_append_right _ (List.mem_singleton_self _))

theorem knows_of_visitEach {depth : Nat} {entrypoints : List (String × Path)}
    (h : visitEach t p depth g entrypoints = .ok g') : g.places <+: g'.places ∧
      ∀ e ∈ entrypoints, ∃ place, t.canonical e.2 = .ok place ∧ Knows g' place := by
  induction entrypoints generalizing g with
  | nil =>
      cases h
      exact ⟨List.prefix_rfl, fun _ he => absurd he List.not_mem_nil⟩
  | cons e entrypoints ih =>
      simp only [visitEach, List.foldlM_cons, bind_eq_ok_iff, map_eq_ok_iff] at h
      obtain ⟨g₁, ⟨⟨id, g₁⟩, hvisit, rfl⟩, hrest⟩ := h
      obtain ⟨hfirst, place, hplace, hknown⟩ := visit_visitsKnown t p depth hvisit
      obtain ⟨hgrown, hall⟩ := ih hrest
      exact ⟨hfirst.trans hgrown,
        List.forall_mem_cons.mpr ⟨⟨place, hplace, hknown.mono hgrown⟩, hall⟩⟩

/-- Where the modules of all entrypoints are known, each entrypoint has a unit, and none is empty. -/
theorem names_of_chunks {entrypoints : List (String × Path)}
    (hknown : ∀ e ∈ entrypoints, ∃ place, t.canonical e.2 = .ok place ∧ Knows g place)
    (h : chunks t g entrypoints = .ok cs) :
    cs.map Chunk.name = entrypoints.map Prod.fst ∧ ∀ unit ∈ cs, unit.moduleIds ≠ [] := by
  induction entrypoints generalizing cs with
  | nil =>
      cases h
      exact ⟨rfl, fun _ hunit => absurd hunit List.not_mem_nil⟩
  | cons e entrypoints ih =>
      obtain ⟨⟨place, hplace, hfirst⟩, hrest⟩ := List.forall_mem_cons.mp hknown
      obtain ⟨id, hfind⟩ := hfirst.exists_find?
      simp only [chunks, hplace, Except.mapError, bind_eq_ok_iff] at h
      obtain ⟨place', hplace', more, hmore, h⟩ := h
      cases hplace'
      rw [hfind] at h
      cases h
      obtain ⟨hnames, hfilled⟩ := ih hrest hmore
      refine ⟨congrArg (e.1 :: ·) hnames, List.forall_mem_cons.mpr ⟨?_, hfilled⟩⟩
      exact List.ne_nil_of_mem (mem_dependencyOrder g id)

/-- Each entrypoint of a build has a unit, and none is empty. -/
theorem Phases.names_chunks (h : Phases f t c r g g' p cs context) :
    cs.map Chunk.name = c.entrypoints.map Prod.fst ∧ ∀ unit ∈ cs, unit.moduleIds ≠ [] := by
  rw [← map_fst_entrypointPaths]
  refine names_of_chunks (fun e he => ?_) h.divided
  obtain ⟨place, hplace, hknown⟩ := (knows_of_visitEach h.discovered).2 e he
  obtain ⟨hrewritten, -⟩ := isRewritten_of_transformAll h.transformed
  have hplaces : g'.places = g.places := by
    refine ModuleGraph.places_eq_of_forall₂ (hrewritten.imp fun n n' hn => ?_)
    obtain ⟨change, -, rfl⟩ := hn
    rfl
  exact ⟨place, hplace, hknown.mono (hplaces ▸ List.prefix_rfl)⟩

theorem Phases.exists_unit_iff (h : Phases f t c r g g' p cs context) {name : String} :
    (∃ unit ∈ cs, unit.name = name) ↔ ∃ e ∈ c.entrypoints, e.1 = name := by
  simp only [← List.mem_map, h.names_chunks.1]

theorem Phases.fileName_iff (h : Phases f t c r g g' p cs context) {name : String} :
    (∃ unit ∈ cs, name = unit.fileName) ↔ ∃ e ∈ c.entrypoints, name = e.1 ++ ".js" := by
  constructor
  · rintro ⟨unit, hunit, rfl⟩
    obtain ⟨e, he, hname⟩ := h.exists_unit_iff.mp ⟨unit, hunit, rfl⟩
    exact ⟨e, he, by rw [Chunk.fileName, hname]⟩
  · rintro ⟨e, he, rfl⟩
    obtain ⟨unit, hunit, hname⟩ := h.exists_unit_iff.mpr ⟨e, he, rfl⟩
    exact ⟨unit, hunit, by rw [Chunk.fileName, hname]⟩

end Units

section Finaliser

/-- In the end a build drops the files of this name. -/
def IsPruned (o : StyleOptions) (name : String) : Prop :=
  o.bundle.isSome = true ∧ name.startsWith Asset.stagingMark = true

instance (o : StyleOptions) (name : String) : Decidable (IsPruned o name) :=
  inferInstanceAs (Decidable (_ ∧ _))

/-- The files of a build before the last step: assets, units and artifacts. -/
theorem Phases.exists_filled (h : Phases f t c r g g' p cs context) :
    ∃ p', finishUnits c.root g' p cs = .ok p' ∧ context = p'.generate.context ∧
      (∀ name, context.bundle.lookup name =
        if IsPruned (optionsOf f c r) name then none else p'.context.bundle.lookup name) ∧
      ∀ name, (∃ file, p'.context.bundle.lookup name = some file) ↔
        (∃ a ∈ loadedAssets t (optionsOf f c r) g, name = a.name) ∨
        (∃ e ∈ c.entrypoints, name = e.1 ++ ".js") ∨
        ∃ a ∈ artifacts p c.root g' cs, name = a.name := by
  obtain ⟨s, assets, -, hp, hoptions, hagree, hassets, -⟩ := h.exists_finished
  obtain ⟨p', hfinish, rfl⟩ := h.finished
  have hfinished := finished_of_finishUnits hp hfinish
  refine ⟨p', hfinish, rfl, fun name => ?_, fun name => ?_⟩
  · rw [lookup_generate hfinished.plugins, hoptions]
    rfl
  · have hloaded : (∃ a ∈ loadedAssets t (optionsOf f c r) g, name = a.name) ↔
        ∃ file, p.context.bundle.lookup name = some file := by
      constructor
      · rintro ⟨a, ha, rfl⟩
        exact hagree.held a ((hassets a).mpr (mem_loadedAssets.mp ha))
      · rintro ⟨file, hfile⟩
        obtain ⟨a, ha, rfl, -⟩ := hagree.files name file hfile
        exact ⟨a, mem_loadedAssets.mpr ((hassets a).mp ha), rfl⟩
    have hunits : (∃ e ∈ c.entrypoints, name = e.1 ++ ".js") ∨
        (∃ a ∈ artifacts p c.root g' cs, name = a.name) ↔
        ∃ file, IsFileOfUnit s c.root g' cs name file := by
      rw [← h.fileName_iff]
      constructor
      · rintro (⟨unit, hunit, rfl⟩ | ⟨a, ha, rfl⟩)
        · obtain ⟨code, hcode⟩ := hfinished.coded unit hunit (h.names_chunks.2 unit hunit)
          have hcode : IsCodeOf c.root g' cs unit code := ⟨hunit, h.names_chunks.2 unit hunit, hcode⟩
          obtain ⟨out, hout⟩ := hfinished.finished unit code hcode
          exact ⟨_, unit, code, hcode, mem_filesOf.mpr ⟨out.1, out.2, hout, .inr ⟨rfl, rfl⟩⟩⟩
        · obtain ⟨unit, hunit, u, hpacked, hartifact⟩ := mem_artifacts.mp ha
          obtain ⟨code, hcode, hout⟩ := isCodeOf_of_packing hp hunit hpacked
          exact ⟨_, unit, code, hcode,
            mem_filesOf.mpr ⟨u.code, u.artifact, hout, .inl ⟨a, hartifact, rfl, rfl⟩⟩⟩
      · rintro ⟨file, unit, code, hcode, hmem⟩
        obtain ⟨code', artifact?, hout, ⟨a, rfl, hname, -⟩ | ⟨hname, -⟩⟩ := mem_filesOf.mp hmem
        · obtain ⟨u, hpacked, hartifact⟩ := exists_packing_of_finished hp hcode hout
          exact .inr ⟨a, mem_artifacts.mpr ⟨unit, hcode.1, u, hpacked, hartifact⟩, hname⟩
        · exact .inl ⟨unit, hcode.1, hname⟩
    rw [hloaded, hunits]
    obtain ⟨entries, hbundle, hentries⟩ := hfinished.bundle
    rw [hbundle, Listing.exists_lookup_insertEach_iff, or_comm]
    simp only [hentries]

/-- What the last step of a build does to its files. What it keeps stays as it is; it drops the
assets that were loaded, if they are only staged, and the units that are named like them; and it
drops no artifact. -/
structure Finalises (o : StyleOptions) (c : Config) (loaded : List Asset)
    (packed : List Artifact) (before after : OutputBundle) : Prop where
  kept : ∀ name file, after.lookup name = some file → before.lookup name = some file
  dropped : ∀ name, ((∃ file, before.lookup name = some file) ∧ after.lookup name = none) ↔
    o.bundle.isSome = true ∧ ((∃ a ∈ loaded, name = a.name) ∨
      ∃ e ∈ c.entrypoints, name = e.1 ++ ".js" ∧ IsPruned o name)
  artifacts : ∀ a ∈ packed, ∃ file, after.lookup a.name = some file

theorem Phases.not_isPruned_artifact (h : Phases f t c r g g' p cs context) {a : Artifact}
    (ha : a ∈ artifacts p c.root g' cs) : ¬IsPruned (optionsOf f c r) a.name := by
  obtain ⟨s, -, -, hp, -⟩ := h.exists_finished
  obtain ⟨extension, hextension⟩ := exists_extension hp
  obtain ⟨source, rfl⟩ := hextension a ha
  rintro ⟨-, hmark⟩
  rw [Artifact.startsWith_ofSource] at hmark
  cases hmark

/-- The assets of a build that packs are staged. -/
theorem Phases.startsWith_loaded (h : Phases f t c r g g' p cs context)
    (hbundle : (optionsOf f c r).bundle.isSome = true) {a : Asset}
    (ha : a ∈ loadedAssets t (optionsOf f c r) g) :
    a.name.startsWith Asset.stagingMark = true := by
  obtain ⟨s, assets, -, -, -, hagree, hassets, -⟩ := h.exists_finished
  have hname := (hagree.published a ((hassets a).mpr (mem_loadedAssets.mp ha))).name_eq
  rw [hname, hbundle]
  exact Asset.startsWith_nameOf _

theorem Phases.exists_finalises (h : Phases f t c r g g' p cs context) :
    ∃ p', finishUnits c.root g' p cs = .ok p' ∧ context = p'.generate.context ∧
      Finalises (optionsOf f c r) c (loadedAssets t (optionsOf f c r) g)
        (artifacts p c.root g' cs) p'.context.bundle context.bundle := by
  obtain ⟨p', hfinish, hcontext, hafter, hbefore⟩ := h.exists_filled
  refine ⟨p', hfinish, hcontext, ?kept, ?dropped, ?artifacts⟩
  case kept =>
    intro name file hfile
    rw [hafter] at hfile
    split at hfile
    · cases hfile
    · exact hfile
  case dropped =>
    intro name
    rw [hafter]
    constructor
    · rintro ⟨⟨file, hfile⟩, hnone⟩
      split at hnone
      · next hpruned =>
          refine ⟨hpruned.1, ?_⟩
          obtain hloaded | ⟨e, he, hname⟩ | ⟨a, ha, rfl⟩ := (hbefore name).mp ⟨file, hfile⟩
          · exact .inl hloaded
          · exact .inr ⟨e, he, hname, hpruned⟩
          · exact absurd hpruned (h.not_isPruned_artifact ha)
      · rw [hfile] at hnone
        cases hnone
    · rintro ⟨hbundle, ⟨a, ha, rfl⟩ | ⟨e, he, hname, hpruned⟩⟩
      · exact ⟨(hbefore _).mpr (.inl ⟨a, ha, rfl⟩), if_pos ⟨hbundle, h.startsWith_loaded hbundle ha⟩⟩
      · exact ⟨(hbefore _).mpr (.inr (.inl ⟨e, he, hname⟩)), if_pos hpruned⟩
  case artifacts =>
    intro a ha
    rw [hafter, if_neg (h.not_isPruned_artifact ha)]
    exact (hbefore _).mpr (.inr (.inr ⟨a, ha, rfl⟩))

end Finaliser

section Listing

theorem manifest_eq (cs : List Chunk) (written : List WrittenFile) :
    manifest cs written =
      Listing.insertEach ((written.filter (·.kind == .asset)).map fun w => (w.name, w.name))
        (Listing.insertEach (cs.map fun unit => (unit.name, unit.fileName)) []) := by
  simp only [manifest, Listing.insertEach, List.foldl_map]

/-- The manifest lists assets under their own names and units under theirs. -/
theorem mem_manifest {cs : List Chunk} {written : List WrittenFile} {entry : String × String}
    (h : entry ∈ manifest cs written) :
    (∃ w ∈ written, w.kind = .asset ∧ entry = (w.name, w.name)) ∨
      ∃ unit ∈ cs, entry = (unit.name, unit.fileName) := by
  rw [manifest_eq] at h
  obtain hasset | hunit := Listing.mem_insertEach h
  · obtain ⟨w, hw, rfl⟩ := List.mem_map.mp hasset
    obtain ⟨hw, hkind⟩ := List.mem_filter.mp hw
    exact .inl ⟨w, hw, beq_iff_eq.mp hkind, rfl⟩
  · obtain hunit | hnil := Listing.mem_insertEach hunit
    · obtain ⟨unit, hmem, rfl⟩ := List.mem_map.mp hunit
      exact .inr ⟨unit, hmem, rfl⟩
    · cases hnil

theorem asset_mem_manifest (cs : List Chunk) {written : List WrittenFile} {w : WrittenFile}
    (hw : w ∈ written) (hkind : w.kind = .asset) : (w.name, w.name) ∈ manifest cs written := by
  have hentry : (w.name, w.name) ∈
      (written.filter (·.kind == .asset)).map fun w => (w.name, w.name) :=
    List.mem_map.mpr ⟨w, List.mem_filter.mpr ⟨hw, beq_iff_eq.mpr hkind⟩, rfl⟩
  rw [manifest_eq]
  refine Listing.mem_of_lookup (Listing.lookup_insertEach_of_mem hentry (fun other hother => ?_) _)
  obtain ⟨w', -, heq⟩ := List.mem_map.mp hother
  exact (congrArg Prod.snd heq).symm.trans (congrArg Prod.fst heq)

/-- The name of each unit is listed, for the unit or for an asset of that name. -/
theorem exists_mem_manifest {cs : List Chunk} {unit : Chunk} (hunit : unit ∈ cs)
    (written : List WrittenFile) : ∃ name, (unit.name, name) ∈ manifest cs written := by
  have hlisted : ∃ name, (Listing.insertEach (cs.map fun unit => (unit.name, unit.fileName))
      []).lookup unit.name = some name :=
    Listing.exists_lookup_insertEach_iff.mpr
      (.inl ⟨unit.fileName, List.mem_map.mpr ⟨unit, hunit, rfl⟩⟩)
  obtain ⟨name, hname⟩ := Listing.exists_lookup_insertEach_iff.mpr (.inr hlisted)
  rw [manifest_eq]
  exact ⟨name, Listing.mem_of_lookup hname⟩

/-- What a build that succeeds reports. -/
theorem report_of_buildWith (h : buildWith f t c r = (t', .ok report))
    (hprepare : prepareWith f t c r = .ok (cs, context)) :
    report = ⟨writtenFiles (directoryOf c r) context.bundle,
      manifest cs (writtenFiles (directoryOf c r) context.bundle), context.diagnostics⟩ := by
  unfold buildWith at h
  rw [hprepare] at h
  obtain ⟨made, cause, -, hpublish⟩ | ⟨made, -, ⟨t₁, -, hpublish⟩ | ⟨_, _, _, _, _, -, -, -, hpublish⟩⟩ :=
    publish_cases t (directoryOf c r) c.output.manifest cs context
  · cases hpublish.symm.trans h
  · exact (Except.ok.inj (Prod.mk.inj (hpublish.symm.trans h)).2).symm
  · cases hpublish.symm.trans h

theorem exists_written_iff {b : OutputBundle} (hordered : b.Ordered) (directory : Path)
    (name : String) : (∃ w ∈ writtenFiles directory b, w.name = name) ↔
      ∃ file, b.lookup name = some file := by
  constructor
  · rintro ⟨w, hw, rfl⟩
    obtain ⟨entry, hentry, rfl⟩ := List.mem_map.mp hw
    exact ⟨entry.2, hordered.lookup_of_mem hentry⟩
  · rintro ⟨file, hfile⟩
    exact ⟨_, List.mem_map_of_mem (Listing.mem_of_lookup hfile), rfl⟩

/-- The report of a build agrees with itself: what it lists is what it has written, apart from units
that were dropped. -/
structure ListsOutputs (o : StyleOptions) (c : Config) (report : BuildReport) : Prop where
  /-- The file of an entrypoint is written unless it is dropped. -/
  units : ∀ e ∈ c.entrypoints,
    (∃ w ∈ report.outputs, w.name = e.1 ++ ".js") ↔ ¬IsPruned o (e.1 ++ ".js")
  /-- What is listed was written unless it was dropped. -/
  values : ∀ entry ∈ report.manifest,
    (∃ w ∈ report.outputs, w.name = entry.2) ↔ ¬IsPruned o entry.2
  /-- Only entrypoints and the assets that were written are listed. -/
  origins : ∀ entry ∈ report.manifest,
    (∃ e ∈ c.entrypoints, entry = (e.1, e.1 ++ ".js")) ∨
      ∃ w ∈ report.outputs, w.kind = .asset ∧ entry = (w.name, w.name)
  /-- Every entrypoint is listed. -/
  entrypoints : ∀ e ∈ c.entrypoints, ∃ name, (e.1, name) ∈ report.manifest
  /-- Every asset that was written is listed. -/
  assets : ∀ w ∈ report.outputs, w.kind = .asset → (w.name, w.name) ∈ report.manifest

theorem Phases.exists_published_iff (h : Phases f t c r g g' p cs context) {e : String × String}
    (he : e ∈ c.entrypoints) : (∃ file, context.bundle.lookup (e.1 ++ ".js") = some file) ↔
      ¬IsPruned (optionsOf f c r) (e.1 ++ ".js") := by
  obtain ⟨p', -, -, hafter, hbefore⟩ := h.exists_filled
  rw [hafter]
  split
  · next hpruned => simp [hpruned]
  · next hkept => exact ⟨fun _ => hkept, fun _ => (hbefore _).mpr (.inr (.inl ⟨e, he, rfl⟩))⟩

theorem Phases.listsOutputs (h : Phases f t c r g g' p cs context) {directory : Path} :
    ListsOutputs (optionsOf f c r) c ⟨writtenFiles directory context.bundle,
      manifest cs (writtenFiles directory context.bundle), context.diagnostics⟩ := by
  have hwritten := exists_written_iff h.ordered directory
  have hunits : ∀ e ∈ c.entrypoints,
      (∃ w ∈ writtenFiles directory context.bundle, w.name = e.1 ++ ".js") ↔
        ¬IsPruned (optionsOf f c r) (e.1 ++ ".js") :=
    fun e he => (hwritten _).trans (h.exists_published_iff he)
  have horigins : ∀ entry ∈ manifest cs (writtenFiles directory context.bundle),
      (∃ e ∈ c.entrypoints, entry = (e.1, e.1 ++ ".js")) ∨
        ∃ w ∈ writtenFiles directory context.bundle, w.kind = .asset ∧
          entry = (w.name, w.name) := by
    intro entry hentry
    obtain hasset | ⟨unit, hunit, rfl⟩ := mem_manifest hentry
    · exact .inr hasset
    · obtain ⟨e, he, heq⟩ := h.exists_unit_iff.mp ⟨unit, hunit, rfl⟩
      exact .inl ⟨e, he, by rw [Chunk.fileName, heq]⟩
  refine ⟨hunits, ?values, horigins, ?entrypoints, ?assets⟩
  case values =>
    intro entry hentry
    obtain ⟨e, he, rfl⟩ | ⟨w, hw, -, rfl⟩ := horigins entry hentry
    · exact hunits e he
    · refine ⟨fun _ hpruned => ?_, fun _ => ⟨w, hw, rfl⟩⟩
      obtain ⟨p', -, -, hafter, -⟩ := h.exists_filled
      obtain ⟨file, hfile⟩ := (hwritten _).mp ⟨w, hw, rfl⟩
      rw [hafter, if_pos hpruned] at hfile
      cases hfile
  case entrypoints =>
    intro e he
    obtain ⟨unit, hunit, hname⟩ := h.exists_unit_iff.mpr ⟨e, he, rfl⟩
    exact hname ▸ exists_mem_manifest hunit _
  case assets => exact fun w hw hkind => asset_mem_manifest cs hw hkind

end Listing

/-- What a build publishes. Each file it reports can be read back; the manifest lists every
entrypoint and every asset that was written, and what it lists was written, but for the units that
are named like staged assets. These and the staged assets are all that the last step drops. -/
theorem manifest_published (f : ContentTransform) (t : FileTree) (c : Config) (r : BuildRequest)
    (h : buildWith f t c r = (t', .ok report)) :
    (∀ w ∈ report.outputs, ∃ text, t'.readText w.path = .ok text) ∧
      ListsOutputs (optionsOf f c r) c report ∧
      ∃ g g' p p' cs context, Phases f t c r g g' p cs context ∧
        finishUnits c.root g' p cs = .ok p' ∧ context = p'.generate.context ∧
        report.outputs = writtenFiles (directoryOf c r) context.bundle ∧
        Finalises (optionsOf f c r) c (loadedAssets t (optionsOf f c r) g)
          (artifacts p c.root g' cs) p'.context.bundle context.bundle := by
  obtain ⟨cs, context, hprepare⟩ := exists_prepareWith h
  obtain ⟨g, g', p, hphases⟩ := exists_phases hprepare
  obtain ⟨made, -, hstored, houtputs⟩ := stored_of_buildWith h hprepare
  obtain ⟨p', hfinish, hcontext, hfinalises⟩ := hphases.exists_finalises
  refine ⟨fun w hw => ?_, ?_, g, g', p, p', cs, context, hphases, hfinish, hcontext, houtputs,
    hfinalises⟩
  · rw [houtputs] at hw
    obtain ⟨entry, hentry, rfl⟩ := List.mem_map.mp hw
    have hfile : (entry.1, entry.2.source) ∈
        outputFiles (directoryOf c r) c.output.manifest cs context :=
      List.mem_append_left _ (List.mem_map_of_mem hentry)
    obtain ⟨last, -, -, htext⟩ := hstored.exists_readText hfile
    exact ⟨_, htext⟩
  · rw [report_of_buildWith h hprepare]
    exact hphases.listsOutputs

/-- A script under two names, one of which a staged asset could have. -/
def namesakeConfig : Config := sheetConfig [("a", "a.js"), ("__sheetpack_a", "a.js")]

theorem run_namesake :
    (phases? .minify sheetProject namesakeConfig ⟨none, some .combined⟩).any
      (fun (_, _, _, _, context) =>
        decide (context.bundle.names = ["a.js", "bundle-04916fd4.css"])) = true := by
  decide +kernel

theorem manifest_published_namesake :
    ∃ t' report, buildWith .minify sheetProject namesakeConfig ⟨none, some .combined⟩ =
        (t', .ok report) ∧
      (∃ w ∈ report.outputs, w.name = "a.js") ∧
      ∃ name, ("__sheetpack_a", name) ∈ report.manifest := by
  obtain ⟨g, g', p, cs, context, hphases, hfacts⟩ := exists_phases_of_run run_namesake
  have hnames := of_decide_eq_true hfacts
  obtain ⟨t', report, hbuild⟩ := exists_report_sheets hphases.prepareWith_eq (by rw [hnames]; decide)
  obtain ⟨-, hlists, -⟩ := manifest_published .minify sheetProject namesakeConfig _ hbuild
  refine ⟨t', report, hbuild, (hlists.units ("a", "a.js") (by decide)).mpr (by decide +kernel), ?_⟩
  exact hlists.entrypoints ("__sheetpack_a", "a.js") (by decide)

/-- The unit of the second name is listed and not written. -/
theorem unit_dropped :
    ∃ t' report, build sheetProject namesakeConfig ⟨none, some .combined⟩ = (t', .ok report) ∧
      ("__sheetpack_a", "__sheetpack_a.js") ∈ report.manifest ∧
      ∀ w ∈ report.outputs, w.name ≠ "__sheetpack_a.js" := by
  obtain ⟨g, g', p, cs, context, hphases, hfacts⟩ := exists_phases_of_run run_namesake
  have hnames := of_decide_eq_true hfacts
  obtain ⟨t', report, hbuild⟩ := exists_report_sheets hphases.prepareWith_eq (by rw [hnames]; decide)
  have hlists : ListsOutputs (optionsOf .minify namesakeConfig ⟨none, some .combined⟩)
      namesakeConfig report :=
    report_of_buildWith hbuild hphases.prepareWith_eq ▸ hphases.listsOutputs
  have hpruned : ∀ name ∈ ["__sheetpack_a", "__sheetpack_a.js"],
      IsPruned (optionsOf .minify namesakeConfig ⟨none, some .combined⟩) name := by
    decide +kernel
  refine ⟨t', report, (build_eq _ _ _).trans hbuild, ?_, fun w hw hname =>
    (hlists.units ("__sheetpack_a", "a.js") (by decide)).mp ⟨w, hw, hname⟩ (hpruned _ (by decide))⟩
  obtain ⟨name, hlisted⟩ := hlists.entrypoints ("__sheetpack_a", "a.js") (by decide)
  obtain ⟨e, -, heq⟩ | ⟨w, hw, -, heq⟩ := hlists.origins _ hlisted
  · obtain ⟨hfirst, rfl⟩ := Prod.mk.inj heq
    rwa [← hfirst] at hlisted
  · -- An asset of this name would have been dropped.
    have hwritten := (hlists.values _ hlisted).mp ⟨w, hw, (congrArg Prod.snd heq).symm⟩
    obtain ⟨hfirst, rfl⟩ := Prod.mk.inj heq
    exact absurd (hpruned _ (hfirst ▸ List.mem_cons_self)) hwritten

end StyleBundler.Build
