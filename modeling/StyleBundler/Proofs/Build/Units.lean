import StyleBundler.Proofs.Build.Discovery
import StyleBundler.Proofs.Build.Phases

/-!
The output units of a build. Each entrypoint has a unit, which holds the modules that its own
reaches (`forall₂_isUnitOf`). What becomes of a unit's code does not depend on the other units
(`Stylesheets.finished`), so the bundle is the one from before with the files of all units
(`finished_of_finishUnits`).
-/

namespace StyleBundler

/-- What becomes of the code of a unit: the code that is written, and the artifact beside it. -/
def Hook.Stylesheets.finished (s : Stylesheets) (code : String) :
    Except StyleError (String × Option Artifact) :=
  match s.options.bundle with
  | none => .ok (code, none)
  | some mode =>
      match PackedUnit.ofCode s.store mode s.options.keyword code with
      | .error cause => .error (.edit cause)
      | .ok none => .ok (code, none)
      | .ok (some packed) => .ok (packed.code, packed.artifact)

namespace Build

open Hook FileTree

variable {t : FileTree} {g : ModuleGraph} {p p' : Pipeline} {s : Stylesheets} {root : Path}
  {cs : List Chunk} {unit : Chunk} {code : String} {name : String} {file : OutputFile}

/-- The unit of an entrypoint holds the modules that the one at its place reaches. -/
structure IsUnitOf (t : FileTree) (g : ModuleGraph) (e : String × Path) (unit : Chunk) : Prop where
  name : unit.name = e.1
  reached : ∃ place id, t.canonical e.2 = .ok place ∧ g.places[id]? = some place ∧
    unit.moduleIds = g.dependencyOrder id

theorem mem_dependencyOrder (g : ModuleGraph) (id : Nat) : id ∈ g.dependencyOrder id := by
  simp [ModuleGraph.dependencyOrder, ModuleGraph.visit]

theorem IsUnitOf.moduleIds_ne_nil {e : String × Path} (h : IsUnitOf t g e unit) :
    unit.moduleIds ≠ [] := by
  obtain ⟨place, id, -, -, hids⟩ := h.reached
  exact List.ne_nil_of_mem (hids ▸ mem_dependencyOrder g id)

/-- Where the modules of all entrypoints are in the graph, each entrypoint has its unit. -/
theorem forall₂_isUnitOf (ht : IsProper t.workingDirectory) (hg : AreFiles t g.places)
    {entrypoints : List (String × Path)}
    (hpresent : ∀ e ∈ entrypoints, ∃ place ∈ g.places, t.canonical e.2 = .ok place) :
    ∃ cs, chunks t g entrypoints = .ok cs ∧ List.Forall₂ (IsUnitOf t g) entrypoints cs := by
  induction entrypoints with
  | nil => exact ⟨[], rfl, .nil⟩
  | cons e entrypoints ih =>
      obtain ⟨⟨place, hmem, hplace⟩, hpresent⟩ := List.forall_mem_cons.mp hpresent
      obtain ⟨cs, hchunks, hunits⟩ := ih hpresent
      cases hfind : g.find? place with
      | none => exact absurd hmem (notMem_of_find? hfind)
      | some id =>
          refine ⟨⟨e.1, g.dependencyOrder id⟩ :: cs, ?_, .cons ⟨rfl, place, id, hplace,
            getElem?_of_find? ht hg hplace hfind, rfl⟩ hunits⟩
          simp only [chunks, hplace, hchunks, hfind, Except.mapError, bind, Except.bind]

/-- Units have the names of entrypoints, in order. -/
theorem sublist_names_of_chunks {entrypoints : List (String × Path)}
    (h : chunks t g entrypoints = .ok cs) :
    List.Sublist (cs.map Chunk.name) (entrypoints.map Prod.fst) := by
  induction entrypoints generalizing cs with
  | nil =>
      cases h
      exact List.Sublist.refl _
  | cons e entrypoints ih =>
      simp only [chunks, bind_eq_ok_iff] at h
      obtain ⟨place, -, more, hmore, h⟩ := h
      split at h
      · cases h
        exact (ih hmore).cons_cons e.1
      · cases h
        exact (ih hmore).cons e.1

theorem map_fst_entrypointPaths (c : Config) :
    c.entrypointPaths.map Prod.fst = c.entrypoints.map Prod.fst := by
  rw [Config.entrypointPaths, List.map_map]
  rfl

/-- No two units are written under one name, when no two entrypoints have the same. -/
theorem eq_of_fileName_eq {entrypoints : List (String × Path)}
    (hchunks : chunks t g entrypoints = .ok cs) (hnames : (entrypoints.map Prod.fst).Nodup)
    {unit' : Chunk} (hunit : unit ∈ cs) (hunit' : unit' ∈ cs) (h : unit.fileName = unit'.fileName) :
    unit = unit' := by
  have hname : unit.name = unit'.name := by
    have hchars := congrArg String.toList h
    simp only [Chunk.fileName, String.toList_append, List.append_cancel_right_eq] at hchars
    exact String.toList_injective hchars
  exact List.inj_on_of_nodup_map (hnames.sublist (sublist_names_of_chunks hchunks)) hunit hunit'
    hname

/-- The files of a unit. -/
def filesOf (s : Stylesheets) (unit : Chunk) (code : String) : List (String × OutputFile) :=
  match s.finished code with
  | .error _ => []
  | .ok (code, artifact?) =>
      (artifact?.map fun a => (a.name, ⟨.asset, a.source⟩)).toList ++
        [(unit.fileName, ⟨.chunk, code⟩)]

theorem mem_filesOf : (name, file) ∈ filesOf s unit code ↔ ∃ code' artifact?,
    s.finished code = .ok (code', artifact?) ∧
      ((∃ a, artifact? = some a ∧ name = a.name ∧ file = ⟨.asset, a.source⟩) ∨
        name = unit.fileName ∧ file = ⟨.chunk, code'⟩) := by
  unfold filesOf
  cases s.finished code with
  | error e => simp
  | ok out =>
      obtain ⟨code', artifact?⟩ := out
      cases artifact? <;> simp

theorem render_eq (hp : p.plugins = [.stylesheets s]) (code : String) :
    p.render code = match s.finished code with
      | .error e => (.error (.style e), p)
      | .ok (code, none) => (.ok code, p)
      | .ok (code, some a) => (.ok code, p.emit a.name .asset a.source) := by
  obtain ⟨plugins, context⟩ := p
  obtain rfl : plugins = [.stylesheets s] := hp
  rw [Pipeline.render, Plugin.renderEach, Plugin.render, Stylesheets.render, Stylesheets.finished]
  cases s.options.bundle with
  | none => rfl
  | some mode =>
      cases hcode : PackedUnit.ofCode s.store mode s.options.keyword code with
      | error cause => simp [hcode, Except.mapError]
      | ok packed? =>
          cases packed? with
          | none => simp [hcode, Except.mapError, Plugin.renderEach]
          | some packed =>
              obtain ⟨code', artifact?, plan⟩ := packed
              cases artifact? with
              | none => simp [hcode, Except.mapError, Plugin.renderEach]
              | some a =>
                  simp [hcode, Except.mapError, Plugin.renderEach, Pipeline.emit, Context.emitAsset]

/-- Finishing units adds their files in turn. -/
theorem finishEach_eq_ok {parts : List (Chunk × String)} (hp : p.plugins = [.stylesheets s])
    (h : finishEach p parts = .ok p') :
    p'.plugins = [.stylesheets s] ∧
      p'.context.bundle =
        Listing.insertEach (parts.flatMap fun x => filesOf s x.1 x.2) p.context.bundle ∧
      ∀ x ∈ parts, ∃ out, s.finished x.2 = .ok out := by
  induction parts generalizing p with
  | nil =>
      cases h
      exact ⟨hp, rfl, by simp⟩
  | cons x parts ih =>
      obtain ⟨unit, code⟩ := x
      rw [finishEach, render_eq hp] at h
      cases hfinished : s.finished code with
      | error e => simp [hfinished] at h
      | ok out =>
          obtain ⟨code', artifact?⟩ := out
          have hfiles : filesOf s unit code =
              (artifact?.map fun a => (a.name, ⟨.asset, a.source⟩)).toList ++
                [(unit.fileName, ⟨.chunk, code'⟩)] := by
            rw [filesOf, hfinished]
          rw [hfinished] at h
          have hnext : ∀ p₁ : Pipeline, p₁.plugins = [.stylesheets s] →
              p₁.context.bundle =
                Listing.insertEach (filesOf s unit code) p.context.bundle →
              finishEach p₁ parts = .ok p' → p'.plugins = [.stylesheets s] ∧
                p'.context.bundle = Listing.insertEach
                  (((unit, code) :: parts).flatMap fun x => filesOf s x.1 x.2) p.context.bundle ∧
                ∀ x ∈ (unit, code) :: parts, ∃ out, s.finished x.2 = .ok out := by
            intro p₁ hp₁ hbundle hrest
            obtain ⟨hp', hbundle', hall⟩ := ih hp₁ hrest
            refine ⟨hp', ?_, List.forall_mem_cons.mpr ⟨⟨_, hfinished⟩, hall⟩⟩
            rw [hbundle', hbundle, List.flatMap_cons, Listing.insertEach, Listing.insertEach,
              Listing.insertEach, List.foldl_append]
          cases artifact? with
          | none => exact hnext (p.emit unit.fileName .chunk code') hp (by rw [hfiles]; rfl) h
          | some a =>
              exact hnext ((p.emit a.name .asset a.source).emit unit.fileName .chunk code') hp
                (by rw [hfiles]; rfl) h

/-- The code of a unit that is not empty. -/
def IsCodeOf (root : Path) (g : ModuleGraph) (cs : List Chunk) (unit : Chunk) (code : String) :
    Prop :=
  unit ∈ cs ∧ unit.moduleIds ≠ [] ∧ unitCode root g unit = .ok code

/-- A file of some unit. -/
def IsFileOfUnit (s : Stylesheets) (root : Path) (g : ModuleGraph) (cs : List Chunk)
    (name : String) (file : OutputFile) : Prop :=
  ∃ unit code, IsCodeOf root g cs unit code ∧ (name, file) ∈ filesOf s unit code

/-- What has been finished: every unit that is not empty, and nothing else. -/
structure Finished (s : Stylesheets) (root : Path) (g : ModuleGraph) (p : Pipeline)
    (cs : List Chunk) (p' : Pipeline) : Prop where
  plugins : p'.plugins = [.stylesheets s]
  coded : ∀ unit ∈ cs, unit.moduleIds ≠ [] → ∃ code, unitCode root g unit = .ok code
  finished : ∀ unit code, IsCodeOf root g cs unit code → ∃ out, s.finished code = .ok out
  bundle : ∃ entries, p'.context.bundle = Listing.insertEach entries p.context.bundle ∧
    ∀ name file, (name, file) ∈ entries ↔ IsFileOfUnit s root g cs name file

theorem finished_of_finishUnits (hp : p.plugins = [.stylesheets s])
    (h : finishUnits root g p cs = .ok p') : Finished s root g p cs p' := by
  simp only [finishUnits, bind_eq_ok_iff, mapError_eq_ok_iff, mapM_eq_ok_iff] at h
  obtain ⟨codes, hall, h⟩ := h
  obtain ⟨hp', hbundle, hfinished⟩ := finishEach_eq_ok hp h
  have hfilled : ∀ unit, unit ∈ cs.filter (!·.moduleIds.isEmpty) ↔
      unit ∈ cs ∧ unit.moduleIds ≠ [] := by simp
  have hparts : ∀ unit code, (unit, code) ∈ (cs.filter (!·.moduleIds.isEmpty)).zip codes ↔
      IsCodeOf root g cs unit code := by
    intro unit code
    rw [mem_zip_iff hall, hfilled, and_assoc]
    rfl
  refine ⟨hp', fun unit hunit hids => ?_, fun unit code hcode => ?_, _, hbundle,
    fun name file => ?_⟩
  · obtain ⟨code, -, hcode⟩ :=
      exists_of_forall₂_of_mem hall ((hfilled unit).mpr ⟨hunit, hids⟩)
    exact ⟨code, hcode⟩
  · exact hfinished _ ((hparts unit code).mpr hcode)
  · rw [List.mem_flatMap]
    constructor
    · rintro ⟨⟨unit, code⟩, hpart, hmem⟩
      exact ⟨unit, code, (hparts unit code).mp hpart, hmem⟩
    · rintro ⟨unit, code, hcode, hmem⟩
      exact ⟨(unit, code), (hparts unit code).mpr hcode, hmem⟩

namespace Finished

theorem lookup_of_file (h : Finished s root g p cs p') (hfile : IsFileOfUnit s root g cs name file)
    (hsame : ∀ other, IsFileOfUnit s root g cs name other → other = file) :
    p'.context.bundle.lookup name = some file := by
  obtain ⟨entries, hbundle, hentries⟩ := h.bundle
  rw [hbundle]
  exact Listing.lookup_insertEach_of_mem ((hentries name file).mpr hfile)
    (fun other hother => hsame other ((hentries name other).mp hother)) _

/-- Files under other names stay. -/
theorem lookup_of_not_file (h : Finished s root g p cs p')
    (hnone : ∀ file, ¬IsFileOfUnit s root g cs name file) :
    p'.context.bundle.lookup name = p.context.bundle.lookup name := by
  obtain ⟨entries, hbundle, hentries⟩ := h.bundle
  rw [hbundle]
  exact Listing.lookup_insertEach_of_notMem (fun file => mt (hentries name file).mp (hnone file)) _

theorem file_or_lookup (h : Finished s root g p cs p')
    (hlookup : p'.context.bundle.lookup name = some file) :
    IsFileOfUnit s root g cs name file ∨ p.context.bundle.lookup name = some file := by
  obtain ⟨entries, hbundle, hentries⟩ := h.bundle
  rw [hbundle] at hlookup
  exact (Listing.mem_or_lookup_of_insertEach hlookup).imp_left (hentries name file).mp

end Finished

theorem bundle_generate (hp : p.plugins = [.stylesheets s]) :
    p.generate.context.bundle = s.generate p.context.bundle := by
  simp only [Pipeline.generate, hp]
  rfl

/-- What a build that packs has staged is not written. -/
theorem lookup_generate (hp : p.plugins = [.stylesheets s]) (name : String) :
    p.generate.context.bundle.lookup name =
      if s.options.bundle.isSome ∧ name.startsWith Asset.stagingMark then none
      else p.context.bundle.lookup name := by
  rw [bundle_generate hp, Stylesheets.generate]
  cases s.options.bundle with
  | none => simp
  | some mode => simp [OutputBundle.lookup_dropMarked]

variable {f : ContentTransform} {c : Config} {r : BuildRequest} {g' : ModuleGraph}
  {context : Context}

/-- The hooks of a build behind its transform, and what they have published. -/
theorem Phases.exists_finished (h : Phases f t c r g g' p cs context) :
    ∃ s assets p', p.plugins = [.stylesheets s] ∧ s.options = optionsOf f c r ∧
      Agree t (optionsOf f c r) assets s.store p.context.bundle ∧
      (∀ a, a ∈ assets ↔ ∃ n ∈ g.nodes, IsImportedBy t (optionsOf f c r) n a) ∧
      Finished s c.root g' p cs p' ∧ context = p'.generate.context := by
  obtain ⟨-, assets, ⟨s, hp, hoptions, hagree⟩, hassets, -⟩ :=
    isRewritten_of_transformAll h.transformed
  obtain ⟨p', hfinish, rfl⟩ := h.finished
  exact ⟨s, assets, p', hp, hoptions, hagree, hassets, finished_of_finishUnits hp hfinish, rfl⟩

theorem Finished.ordered_generate (h : Finished s root g p cs p')
    (hordered : p.context.bundle.Ordered) : p'.generate.context.bundle.Ordered := by
  obtain ⟨entries, hbundle, -⟩ := h.bundle
  have hfilled : p'.context.bundle.Ordered := hbundle ▸ hordered.insertEach entries
  rw [bundle_generate h.plugins, Stylesheets.generate]
  cases s.options.bundle with
  | none => exact hfilled
  | some mode => exact hfilled.filter _

theorem Phases.ordered (h : Phases f t c r g g' p cs context) : context.bundle.Ordered := by
  obtain ⟨s, assets, p', -, -, hagree, -, hfinished, rfl⟩ := h.exists_finished
  exact hfinished.ordered_generate hagree.ordered

/-- A unit is written as the hooks finish it, unless an artifact or another unit has its name, or it
counts as staged. -/
theorem Phases.lookup_fileName (h : Phases f t c r g g' p cs context)
    (hnames : (c.entrypointPaths.map Prod.fst).Nodup) (hp : p.plugins = [.stylesheets s])
    {out : String × Option Artifact} (hcode : IsCodeOf c.root g' cs unit code)
    (hout : s.finished code = .ok out)
    (hkept : s.options.bundle = none ∨ unit.fileName.startsWith Asset.stagingMark = false)
    (hartifacts : ∀ unit' code' code'' a, IsCodeOf c.root g' cs unit' code' →
      s.finished code' = .ok (code'', some a) → unit.fileName ≠ a.name) :
    context.bundle.lookup unit.fileName = some ⟨.chunk, out.1⟩ := by
  obtain ⟨p', hfinish, rfl⟩ := h.finished
  have hfinished := finished_of_finishUnits hp hfinish
  have hstays : ¬(s.options.bundle.isSome = true ∧
      unit.fileName.startsWith Asset.stagingMark = true) := by
    rintro ⟨hsome, hmark⟩
    obtain hnone | hfree := hkept
    · rw [hnone] at hsome
      cases hsome
    · rw [hfree] at hmark
      cases hmark
  rw [lookup_generate hfinished.plugins, if_neg hstays]
  refine hfinished.lookup_of_file ⟨unit, code, hcode,
    mem_filesOf.mpr ⟨out.1, out.2, hout, .inr ⟨rfl, rfl⟩⟩⟩ ?_
  rintro other ⟨unit', code', hcode', hmem⟩
  obtain ⟨code'', _, hout', ⟨a, rfl, hname, -⟩ | ⟨hname, rfl⟩⟩ := mem_filesOf.mp hmem
  · exact absurd hname (hartifacts unit' code' code'' a hcode' hout')
  · obtain rfl := eq_of_fileName_eq h.divided hnames hcode.1 hcode'.1 hname
    obtain rfl := Except.ok.inj (hcode.2.2.symm.trans hcode'.2.2)
    obtain rfl := Except.ok.inj (hout.symm.trans hout')
    rfl

theorem finished_of_bundle_eq_none (h : s.options.bundle = none) (code : String) :
    s.finished code = .ok (code, none) := by
  rw [Stylesheets.finished, h]

end Build
end StyleBundler
