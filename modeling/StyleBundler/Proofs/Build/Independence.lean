import StyleBundler.Proofs.Build.Publication
import StyleBundler.Proofs.Build.Units
import StyleBundler.Proofs.Graph

/-!
Units are independent of each other. The modules of a transformed graph are what their own files
give (`IsRewrittenGraph`), so the graphs of two builds of one project correspond along the places of
their modules (`correspondence_samePlace`), and the units of an entrypoint that both have hold the
same modules in the same order (`unit_independent`).
-/

namespace StyleBundler.Build

open Hook FileTree

variable {t : FileTree} {f : ContentTransform} {c : Config} {r : BuildRequest} {p : Pipeline}
  {o : StyleOptions} {g g' : ModuleGraph} {i i' : Nat}

/-- The modules of a graph are different files with all their dependencies, and what the hooks make
of them. -/
structure IsRewrittenGraph (t : FileTree) (p : Pipeline) (o : StyleOptions) (g : ModuleGraph) :
    Prop where
  files : AreFiles t g.places
  rewritten : ∀ n' ∈ g.nodes, ∃ n, IsComplete t p g.places n ∧ IsRewritten t o n n'

theorem isRewrittenGraph_of_transformAll (ht : IsProper t.workingDirectory)
    {entrypoints : List (String × Path)} {p' : Pipeline}
    (hdiscover : discover t (started f c r) entrypoints = .ok g)
    (htransform : transformAll t (started f c r) g = .ok (g', p')) :
    IsRewrittenGraph t (started f c r) (optionsOf f c r) g' ∧
      ∀ e ∈ entrypoints, ∃ place ∈ g'.places, t.canonical e.2 = .ok place := by
  obtain ⟨added, hnodes, hfiles, hadded, hpresent⟩ :=
    exists_added_of_visitEach ht (AreFiles.empty t) hdiscover
  rw [ModuleGraph.empty, List.nil_append] at hnodes
  rw [← hnodes] at hadded
  obtain ⟨hrewritten, -⟩ := isRewritten_of_transformAll htransform
  have hplaces : g'.places = g.places := by
    refine ModuleGraph.places_eq_of_forall₂ (hrewritten.imp fun n n' hn => ?_)
    obtain ⟨change, -, rfl⟩ := hn
    rfl
  rw [← hplaces] at hfiles hpresent
  refine ⟨⟨hfiles, fun n' hn' => ?_⟩, hpresent⟩
  obtain ⟨n, hn, hnn'⟩ := exists_of_forall₂_of_mem hrewritten.flip hn'
  exact ⟨n, hplaces ▸ (hadded n hn).1, hnn'⟩

/-- The modules with these numbers are at the same place. -/
def SamePlace (g g' : ModuleGraph) (i i' : Nat) : Prop :=
  ∃ place, g.places[i]? = some place ∧ g'.places[i']? = some place

theorem forall₂_samePlace {xs xs' : List Nat} {places : List Path}
    (h : xs.map (g.places[·]?) = places.map some)
    (h' : xs'.map (g'.places[·]?) = places.map some) :
    List.Forall₂ (SamePlace g g') xs xs' := by
  induction places generalizing xs xs' with
  | nil =>
      rw [List.map_nil, List.map_eq_nil_iff] at h h'
      rw [h, h']
      exact .nil
  | cons place places ih =>
      obtain ⟨x, xs, rfl, hx, hxs⟩ := List.map_eq_cons_iff.mp h
      obtain ⟨x', xs', rfl, hx', hxs'⟩ := List.map_eq_cons_iff.mp h'
      exact .cons ⟨place, hx, hx'⟩ (ih hxs hxs')

namespace IsRewrittenGraph

/-- Modules at the same place are the same, and depend on modules at the same places. -/
theorem exists_nodes (h : IsRewrittenGraph t p o g) (h' : IsRewrittenGraph t p o g')
    (hi : SamePlace g g' i i') :
    ∃ n n', g.nodes[i]? = some n ∧ g'.nodes[i']? = some n' ∧ n.module = n'.module ∧
      List.Forall₂ (SamePlace g g') n.dependencies n'.dependencies := by
  obtain ⟨place, hplace, hplace'⟩ := hi
  obtain ⟨n, hn, hpath⟩ := ModuleGraph.exists_node_of_place hplace
  obtain ⟨n', hn', hpath'⟩ := ModuleGraph.exists_node_of_place hplace'
  obtain ⟨m, hm, change, hchange, rfl⟩ := h.rewritten n (List.mem_of_getElem? hn)
  obtain ⟨m', hm', change', hchange', rfl⟩ := h'.rewritten n' (List.mem_of_getElem? hn')
  obtain ⟨⟨path, source, internalImports, transformed⟩, dependencies⟩ := m
  obtain ⟨⟨path', source', internalImports', transformed'⟩, dependencies'⟩ := m'
  obtain rfl : path = place := hpath
  obtain rfl : path' = path := hpath'
  -- The file at the place gives the source, and the source all that follows.
  obtain rfl : source = source' := Except.ok.inj (hm.text.symm.trans hm'.text)
  obtain rfl : internalImports = internalImports' :=
    hm.internalImports.trans hm'.internalImports.symm
  obtain rfl : change = change' := Except.ok.inj (hchange.symm.trans hchange')
  exact ⟨_, _, hn, hn', rfl, forall₂_samePlace hm.dependencies hm'.dependencies⟩

theorem correspondence_samePlace (h : IsRewrittenGraph t p o g) (h' : IsRewrittenGraph t p o g') :
    ModuleGraph.Correspondence g g' (SamePlace g g') where
  inRange := by
    rintro i i' ⟨place, hplace, hplace'⟩
    obtain ⟨hi, -⟩ := List.getElem?_eq_some_iff.mp hplace
    obtain ⟨hi', -⟩ := List.getElem?_eq_some_iff.mp hplace'
    rw [ModuleGraph.length_places] at hi hi'
    exact ⟨hi, hi'⟩
  unique := by
    rintro i i' j j' ⟨place, hi, hi'⟩ ⟨other, hj, hj'⟩
    obtain ⟨hlt, -⟩ := List.getElem?_eq_some_iff.mp hi
    obtain ⟨hlt', -⟩ := List.getElem?_eq_some_iff.mp hi'
    rw [← List.getElem?_inj hlt h.files.nodup, ← List.getElem?_inj hlt' h'.files.nodup, hi, hj, hi',
      hj']
  dependencies := by
    intro i i' hi
    obtain ⟨n, n', hn, hn', -, hdependencies⟩ := h.exists_nodes h' hi
    simpa [ModuleGraph.dependencies, hn, hn'] using hdependencies

theorem module?_eq (h : IsRewrittenGraph t p o g) (h' : IsRewrittenGraph t p o g')
    (hi : SamePlace g g' i i') : g.module? i = g'.module? i' := by
  obtain ⟨n, n', hn, hn', hmodule, -⟩ := h.exists_nodes h' hi
  rw [ModuleGraph.module?, ModuleGraph.module?, hn, hn', Option.map_some, Option.map_some, hmodule]

theorem filterMap_module?_eq (h : IsRewrittenGraph t p o g) (h' : IsRewrittenGraph t p o g')
    {ids ids' : List Nat} (hids : List.Forall₂ (SamePlace g g') ids ids') :
    ids.filterMap g.module? = ids'.filterMap g'.module? := by
  induction hids with
  | nil => rfl
  | cons hi _ ih => rw [List.filterMap_cons, List.filterMap_cons, h.module?_eq h' hi, ih]

/-- Units of entrypoints with the same path have the same code. -/
theorem unitCode_eq (h : IsRewrittenGraph t p o g) (h' : IsRewrittenGraph t p o g')
    {e e' : String × Path} (he : e.2 = e'.2) {unit unit' : Chunk} (hunit : IsUnitOf t g e unit)
    (hunit' : IsUnitOf t g' e' unit') (root : Path) :
    unitCode root g unit = unitCode root g' unit' := by
  obtain ⟨place, id, hplace, hid, hids⟩ := hunit.reached
  obtain ⟨place', id', hplace', hid', hids'⟩ := hunit'.reached
  rw [← he] at hplace'
  obtain rfl : place = place' := Except.ok.inj (hplace.symm.trans hplace')
  have horder := (h.correspondence_samePlace h').dependencyOrder ⟨place, hid, hid'⟩
  rw [unitCode, unitCode, hids, hids', h.filterMap_module?_eq h' horder]

end IsRewrittenGraph

/-- The units of a build that has been transformed. -/
theorem exists_units (ht : IsProper t.workingDirectory) {p' : Pipeline}
    (hdiscover : discover t (started f c r) c.entrypointPaths = .ok g)
    (htransform : transformAll t (started f c r) g = .ok (g', p')) :
    IsRewrittenGraph t (started f c r) (optionsOf f c r) g' ∧
      ∃ cs, chunks t g' c.entrypointPaths = .ok cs ∧
        List.Forall₂ (IsUnitOf t g') c.entrypointPaths cs := by
  obtain ⟨hgraph, hpresent⟩ := isRewrittenGraph_of_transformAll ht hdiscover htransform
  exact ⟨hgraph, forall₂_isUnitOf ht hgraph.files hpresent⟩

/-- A unit that has the name of an entrypoint is the unit of that entrypoint. -/
theorem isUnitOf_of_name_eq {cs : List Chunk} {name path : String} {unit : Chunk}
    (hnames : (c.entrypoints.map Prod.fst).Nodup) (he : (name, path) ∈ c.entrypoints)
    (hunits : List.Forall₂ (IsUnitOf t g) c.entrypointPaths cs) (hunit : unit ∈ cs)
    (hname : unit.name = name) : IsUnitOf t g (name, c.root.join ⟨path⟩) unit := by
  obtain ⟨e, hmem, he'⟩ := exists_of_forall₂_of_mem hunits.flip hunit
  have hentry : (name, c.root.join ⟨path⟩) ∈ c.entrypointPaths :=
    List.mem_map.mpr ⟨(name, path), he, rfl⟩
  rw [← map_fst_entrypointPaths] at hnames
  rwa [← List.inj_on_of_nodup_map hnames hmem hentry (he'.name.symm.trans hname)]

/-- Without packing a build that succeeds writes each unit as it is. -/
theorem publishes_unit {t' : FileTree} {report : BuildReport} {cs : List Chunk} {p' : Pipeline}
    (hbundle : (optionsOf f c r).bundle = none) (hnames : (c.entrypoints.map Prod.fst).Nodup)
    (hdiscover : discover t (started f c r) c.entrypointPaths = .ok g)
    (htransform : transformAll t (started f c r) g = .ok (g', p'))
    (hchunks : chunks t g' c.entrypointPaths = .ok cs)
    (hunits : List.Forall₂ (IsUnitOf t g') c.entrypointPaths cs)
    (h : buildWith f t c r = (t', .ok report)) :
    ∀ unit ∈ cs, ∃ code, unitCode c.root g' unit = .ok code ∧
      Publishes f t c r unit.fileName ⟨.chunk, code⟩ := by
  intro unit hunit
  obtain ⟨cs₁, context, hprepare⟩ := exists_prepareWith h
  obtain ⟨g₁, g₁', p₁, hphases⟩ := exists_phases hprepare
  obtain rfl := Except.ok.inj (hdiscover.symm.trans hphases.discovered)
  obtain ⟨rfl, rfl⟩ := Prod.mk.inj (Except.ok.inj (htransform.symm.trans hphases.transformed))
  obtain rfl := Except.ok.inj (hchunks.symm.trans hphases.divided)
  rw [← map_fst_entrypointPaths] at hnames
  obtain ⟨e, -, he⟩ := exists_of_forall₂_of_mem hunits.flip hunit
  obtain ⟨s, -, p₁, hp, hoptions, -, -, hfinished, -⟩ := hphases.exists_finished
  have hnone : s.options.bundle = none := by rw [hoptions, hbundle]
  obtain ⟨code, hcode⟩ := hfinished.coded unit hunit he.moduleIds_ne_nil
  refine ⟨code, hcode, publishes_of_lookup h hprepare hphases.ordered ?_
    (fileName_ne_manifestName unit)⟩
  refine hphases.lookup_fileName hnames hp ⟨hunit, he.moduleIds_ne_nil, hcode⟩
    (finished_of_bundle_eq_none hnone code) (.inl hnone) ?_
  intro unit' code' code'' a _ hout
  rw [finished_of_bundle_eq_none hnone] at hout
  cases hout

/-- Two configurations of one project with the same root and the same settings for stylesheets, both
with an entrypoint of this name and path, whatever their other entrypoints are. Once both builds
have found and transformed their modules, the entrypoint has one unit in each of them, and the code
of the two is the same. Without packing the files that the builds write for it are the same too. -/
theorem unit_independent (f : ContentTransform) (t : FileTree) (c c' : Config) (r r' : BuildRequest)
    (name path : String) {g₀ g g₀' g' : ModuleGraph} {p p' : Pipeline}
    (ht : IsProper t.workingDirectory) (hroot : c.root = c'.root) (hcss : c.css = c'.css)
    (hbundle : r.bundle = r'.bundle) (he : (name, path) ∈ c.entrypoints)
    (he' : (name, path) ∈ c'.entrypoints) (hnames : (c.entrypoints.map Prod.fst).Nodup)
    (hnames' : (c'.entrypoints.map Prod.fst).Nodup)
    (hdiscover : discover t (started f c r) c.entrypointPaths = .ok g₀)
    (htransform : transformAll t (started f c r) g₀ = .ok (g, p))
    (hdiscover' : discover t (started f c' r') c'.entrypointPaths = .ok g₀')
    (htransform' : transformAll t (started f c' r') g₀' = .ok (g', p')) :
    ∃ cs cs', chunks t g c.entrypointPaths = .ok cs ∧ chunks t g' c'.entrypointPaths = .ok cs' ∧
      (∃ unit ∈ cs, unit.name = name) ∧ (∃ unit' ∈ cs', unit'.name = name) ∧
      ∀ unit ∈ cs, unit.name = name → ∀ unit' ∈ cs', unit'.name = name →
        unit.moduleIds ≠ [] ∧ unit'.moduleIds ≠ [] ∧
        unitCode c.root g unit = unitCode c'.root g' unit' ∧
        (r.bundle.or c.css.bundle = none →
          ∀ t₁ report t₁' report', buildWith f t c r = (t₁, .ok report) →
            buildWith f t c' r' = (t₁', .ok report') →
            ∃ code, unitCode c.root g unit = .ok code ∧
              Publishes f t c r (name ++ ".js") ⟨.chunk, code⟩ ∧
              Publishes f t c' r' (name ++ ".js") ⟨.chunk, code⟩) := by
  obtain ⟨hgraph, cs, hchunks, hunits⟩ := exists_units ht hdiscover htransform
  obtain ⟨hgraph', cs', hchunks', hunits'⟩ := exists_units ht hdiscover' htransform'
  have hoptions : optionsOf f c r = optionsOf f c' r' := by
    rw [optionsOf, optionsOf, Config.styleOptions, Config.styleOptions, hcss, hbundle]
  have hstarted : started f c r = started f c' r' := by rw [started, started, hoptions]
  rw [← hoptions, ← hstarted] at hgraph'
  have hexists : ∀ {g : ModuleGraph} {c : Config} {cs : List Chunk},
      (name, path) ∈ c.entrypoints → List.Forall₂ (IsUnitOf t g) c.entrypointPaths cs →
      ∃ unit ∈ cs, unit.name = name := by
    intro g c cs he hunits
    obtain ⟨unit, hunit, hof⟩ := exists_of_forall₂_of_mem hunits (List.mem_map_of_mem he)
    exact ⟨unit, hunit, hof.name⟩
  refine ⟨cs, cs', hchunks, hchunks', hexists he hunits, hexists he' hunits', ?_⟩
  intro unit hunit hname unit' hunit' hname'
  have hof := isUnitOf_of_name_eq hnames he hunits hunit hname
  have hof' := isUnitOf_of_name_eq hnames' he' hunits' hunit' hname'
  have hcode : unitCode c.root g unit = unitCode c'.root g' unit' := by
    rw [← hroot] at hof' ⊢
    exact hgraph.unitCode_eq hgraph' rfl hof hof' c.root
  refine ⟨hof.moduleIds_ne_nil, hof'.moduleIds_ne_nil, hcode, ?_⟩
  intro hnone t₁ report t₁' report' hbuild hbuild'
  have hnone' : (optionsOf f c r).bundle = none := hnone
  obtain ⟨code, hunitCode, hpublishes⟩ :=
    publishes_unit hnone' hnames hdiscover htransform hchunks hunits hbuild unit hunit
  obtain ⟨code', hunitCode', hpublishes'⟩ := publishes_unit (hoptions ▸ hnone') hnames' hdiscover'
    htransform' hchunks' hunits' hbuild' unit' hunit'
  rw [hcode, hunitCode', Except.ok.injEq] at hunitCode
  rw [Chunk.fileName, hname] at hpublishes
  rw [Chunk.fileName, hname', hunitCode] at hpublishes'
  exact ⟨code, by rw [hcode, hunitCode', hunitCode], hpublishes, hpublishes'⟩

/-- Three scripts that load each other in a circle. -/
def circleProject : FileTree :=
  ⟨[(["src"], .directory), (["src", "a.js"], .file "import './b.js';\n1;\n".toUTF8),
    (["src", "b.js"], .file "import './c.js';\n2;\n".toUTF8),
    (["src", "c.js"], .file "import './a.js';\n3;\n".toUTF8)], []⟩

/-- A build of some of them. -/
def circleConfig (entrypoints : List (String × String)) : Config :=
  ⟨⟨"circle", "0.1.0"⟩, entrypoints, Config.standardOutput, Config.standardStyles, ⟨"/"⟩⟩

/-- The unit of one script, alone and behind that of another one, which is visited first. -/
theorem unit_independent_circle :
    let c := circleConfig [("main", "src/a.js")]
    let c' := circleConfig [("first", "src/c.js"), ("main", "src/a.js")]
    ∃ g g' cs cs' unit unit' code, chunks circleProject g c.entrypointPaths = .ok cs ∧
      chunks circleProject g' c'.entrypointPaths = .ok cs' ∧ unit ∈ cs ∧ unit' ∈ cs' ∧
      unitCode ⟨"/"⟩ g unit = .ok code ∧ unitCode ⟨"/"⟩ g' unit' = .ok code ∧
      Publishes .minify circleProject c ⟨none, none⟩ "main.js" ⟨.chunk, code⟩ ∧
      Publishes .minify circleProject c' ⟨none, none⟩ "main.js" ⟨.chunk, code⟩ := by
  intro c c'
  have hrun : (buildWith .minify circleProject c ⟨none, none⟩).2.isOk = true := by decide +kernel
  have hrun' : (buildWith .minify circleProject c' ⟨none, none⟩).2.isOk = true := by decide +kernel
  obtain ⟨t₁, report, hbuild⟩ := exists_report_of_isOk hrun
  obtain ⟨t₁', report', hbuild'⟩ := exists_report_of_isOk hrun'
  obtain ⟨_, _, hprepare⟩ := exists_prepareWith hbuild
  obtain ⟨_, _, hprepare'⟩ := exists_prepareWith hbuild'
  obtain ⟨g₀, g, p, hphases⟩ := exists_phases hprepare
  obtain ⟨g₀', g', p', hphases'⟩ := exists_phases hprepare'
  obtain ⟨cs, cs', hchunks, hchunks', ⟨unit, hunit, hname⟩, ⟨unit', hunit', hname'⟩, hall⟩ :=
    unit_independent .minify circleProject c c' ⟨none, none⟩ ⟨none, none⟩ "main" "src/a.js"
      (by decide) rfl rfl rfl (by decide) (by decide) (by decide) (by decide) hphases.discovered
      hphases.transformed hphases'.discovered hphases'.transformed
  obtain ⟨-, -, hcode, hwritten⟩ := hall unit hunit hname unit' hunit' hname'
  obtain ⟨code, hunitCode, hpublishes, hpublishes'⟩ :=
    hwritten rfl t₁ report t₁' report' hbuild hbuild'
  exact ⟨g, g', cs, cs', unit, unit', code, hchunks, hchunks', hunit, hunit', hunitCode,
    hcode ▸ hunitCode, hpublishes, hpublishes'⟩

/-- Two entrypoints whose files have one place: the file that one of them has alone is not there
when both are built. -/
theorem unit_overwritten :
    let c := circleConfig [("./main", "src/a.js")]
    let c' := circleConfig [("./main", "src/a.js"), ("main", "src/c.js")]
    ∃ t₁ report t₁' report',
      buildWith .minify circleProject c ⟨none, none⟩ = (t₁, .ok report) ∧
      buildWith .minify circleProject c' ⟨none, none⟩ = (t₁', .ok report') ∧
      t₁.readText ⟨"/dist/./main.js"⟩ ≠ t₁'.readText ⟨"/dist/./main.js"⟩ := by
  intro c c'
  have hrun : (buildWith .minify circleProject c ⟨none, none⟩).2.isOk = true := by decide +kernel
  have hrun' : (buildWith .minify circleProject c' ⟨none, none⟩).2.isOk = true := by decide +kernel
  obtain ⟨t₁, report, hbuild⟩ := exists_report_of_isOk hrun
  obtain ⟨t₁', report', hbuild'⟩ := exists_report_of_isOk hrun'
  refine ⟨t₁, report, t₁', report', hbuild, hbuild', ?_⟩
  obtain rfl := congrArg Prod.fst hbuild
  obtain rfl := congrArg Prod.fst hbuild'
  decide +kernel

end StyleBundler.Build
