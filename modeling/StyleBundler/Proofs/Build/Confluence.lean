import StyleBundler.Proofs.Build.Transformed
import StyleBundler.Proofs.Hook.Concurrent

/-!
The order in which stylesheets are loaded does not show. Where the loads of some modules can
succeed at all there is an order in which they do (`exists_succeeded`), and all such orders end
with the same modules and the same files as transforming one module after the other
(`transform_confluent`).
-/

namespace StyleBundler.Hook.Concurrent

open Import AssetStore

variable {t : FileTree} {o : StyleOptions} {ms : List Source} {s s₁ s₂ : State} {x y : Job}
  {importer path : Path} {site : Site} {a : Asset} {phase : Phase}

/-- Steps of one load. -/
def Runs (t : FileTree) (o : StyleOptions) (ms : List Source) (x : Job) (s s' : State) : Prop :=
  Relation.ReflTransGen (Step t o ms) s s' ∧ ∀ y, y ≠ x → s'.phase y = s.phase y

theorem Runs.refl (t : FileTree) (o : StyleOptions) (ms : List Source) (x : Job) (s : State) :
    Runs t o ms x s s :=
  ⟨.refl, fun _ _ => rfl⟩

theorem Runs.move (h : Runs t o ms x s s₁) (hx : siteOf? o ms x = some (importer, site))
    (hmove : Move t o importer site x s₁ (s₂.move x phase)) (hphase : s₂.phase = s₁.phase) :
    Runs t o ms x s (s₂.move x phase) := by
  refine ⟨h.1.tail ⟨x, importer, site, hx, hmove⟩, fun y hy => ?_⟩
  rw [phase_move_of_ne hy, hphase, h.2 y hy]

/-- A load that has its cell goes through, where its stylesheet can be read. -/
theorem exists_runs_reading (h : Runs t o ms x s s₁)
    (hx : siteOf? o ms x = some (importer, site)) (hphase : s₁.phase x = .reading path)
    {content : String} (hfetch : fetch t o.transform path = .ok content) :
    ∃ s', Runs t o ms x s s' ∧ ((s'.phase x).asset?).isSome = true := by
  obtain ⟨raw, hraw, htransform⟩ : ∃ raw, t.readText path = .ok raw ∧
      (Phase.transforming path raw).advance? t o = some (.publishing path content) := by
    unfold fetch at hfetch
    split at hfetch
    · cases hfetch
    · next raw hraw =>
        refine ⟨raw, hraw, ?_⟩
        simp only [Phase.advance?]
        split at hfetch
        · next hnone =>
            cases hfetch
            simp only [hnone]
        · next f hf =>
            split at hfetch
            · next value hvalue =>
                cases hfetch
                simp only [hf, hvalue]
            · cases hfetch
  have hread : (s₁.phase x).advance? t o = some (.transforming path raw) := by
    rw [hphase, Phase.advance?, hraw]
  have h₂ := h.move hx (.work hread) rfl
  have h₃ := h₂.move hx (.work (by rw [phase_move_self, htransform])) rfl
  have h₄ := h₃.move hx (.publish (phase_move_self _ _ _) rfl) rfl
  have h₅ := h₄.move hx (.file (phase_move_self _ _ _)) rfl
  have h₆ := h₅.move hx (.settle (phase_move_self _ _ _)) rfl
  exact ⟨_, h₆, by rw [phase_move_self]; rfl⟩

/-- No load is at work. -/
def State.Quiet (s : State) : Prop :=
  ∀ x, s.phase x = .requested ∨ ((s.phase x).asset?).isSome = true

theorem State.Quiet.work?_eq_none (h : s.Quiet) (x : Job) : (s.phase x).work? = none := by
  obtain h | h := h x
  · rw [h]
    rfl
  · obtain ⟨a, ha⟩ := Option.isSome_iff_exists.mp h
    rw [Phase.asset?_eq_some ha]
    rfl

/-- Where no load is at work, the next one goes through. -/
theorem exists_runs (h : s.Quiet) (hx : siteOf? o ms x = some (importer, site))
    (hphase : s.phase x = .requested) (hasset : assetFor t o importer site = .ok a) :
    ∃ s', Runs t o ms x s s' ∧ ((s'.phase x).asset?).isSome = true := by
  obtain ⟨hpublished, hresolve⟩ := assetFor_eq_ok_iff.mp hasset
  have hreserved := (Runs.refl t o ms x s).move hx (.reserve hphase hresolve) rfl
  cases hloaded : (s.store.reserve a.path).loaded? a.path with
  | some b =>
      have hhit := hreserved.move hx (.hit (phase_move_self _ _ _) hloaded) rfl
      exact ⟨_, hhit, by rw [phase_move_self]; rfl⟩
  | none =>
      have hfree : ({ s with store := s.store.reserve a.path }.move x (.waiting a.path)).Free
          a.path := by
        intro y q hq
        by_cases hy : y = x
        · rw [hy, phase_move_self] at hq
          cases hq
        · rw [phase_move_of_ne hy] at hq
          rw [h.work?_eq_none] at hq
          cases hq
      have hacquired := hreserved.move hx (.acquire (phase_move_self _ _ _) hloaded hfree) rfl
      exact exists_runs_reading hacquired hx (phase_move_self _ _ _) hpublished.fetched

/-- The loads of all sites. -/
def jobs (o : StyleOptions) (ms : List Source) : List Job :=
  ms.zipIdx.flatMap fun (m, i) =>
    (List.range (sitesOf o m.path m.code).length).map fun j => ⟨i, j⟩

theorem mem_jobs (h : (siteOf? o ms x).isSome = true) : x ∈ jobs o ms := by
  obtain ⟨i, j⟩ := x
  obtain ⟨found, hfound⟩ := Option.isSome_iff_exists.mp h
  obtain ⟨m, hm, hsite⟩ := Option.bind_eq_some_iff.mp hfound
  obtain ⟨site, hsite, -⟩ := Option.bind_eq_some_iff.mp hsite
  obtain ⟨hj, -⟩ := List.getElem?_eq_some_iff.mp hsite
  exact List.mem_flatMap.mpr ⟨(m, i), List.mem_zipIdx_iff_getElem?.mpr hm,
    List.mem_map_of_mem (List.mem_range.mpr hj)⟩

/-- Where the stylesheets of all sites can be read, there is an order in which all loads
succeed. -/
theorem exists_succeeded (h : ∀ x importer site, siteOf? o ms x = some (importer, site) →
    ∃ a, assetFor t o importer site = .ok a) :
    ∃ s, Reachable t o ms s ∧ s.Succeeded o ms := by
  -- One load after the other, with no other one at work.
  have hjobs : ∀ xs : List Job, ∃ s, Reachable t o ms s ∧ s.Quiet ∧
      ∀ x ∈ xs, (siteOf? o ms x).isSome = true → ((s.phase x).asset?).isSome = true := by
    intro xs
    induction xs with
    | nil => exact ⟨.start o, .refl, fun _ => .inl rfl, by simp⟩
    | cons x xs ih =>
        obtain ⟨s, hs, hquiet, hdone⟩ := ih
        cases hx : siteOf? o ms x with
        | none =>
            refine ⟨s, hs, hquiet, fun y hy hsome => ?_⟩
            obtain rfl | hy := List.mem_cons.mp hy
            · rw [hx] at hsome
              cases hsome
            · exact hdone y hy hsome
        | some found =>
            obtain ⟨importer, site⟩ := found
            obtain hphase | hfinished := hquiet x
            · obtain ⟨a, ha⟩ := h x importer site hx
              obtain ⟨s', hruns, hfinished⟩ := exists_runs hquiet hx hphase ha
              refine ⟨s', hs.trans hruns.1, fun y => ?_, fun y hy hsome => ?_⟩
              · by_cases hyx : y = x
                · exact .inr (hyx ▸ hfinished)
                · rw [hruns.2 y hyx]
                  exact hquiet y
              · by_cases hyx : y = x
                · exact hyx ▸ hfinished
                · rw [hruns.2 y hyx]
                  exact hdone y ((List.mem_cons.mp hy).resolve_left hyx) hsome
            · refine ⟨s, hs, hquiet, fun y hy hsome => ?_⟩
              obtain rfl | hy := List.mem_cons.mp hy
              · exact hfinished
              · exact hdone y hy hsome
  obtain ⟨s, hs, -, hdone⟩ := hjobs (jobs o ms)
  exact ⟨s, hs, fun x hx => hdone x (mem_jobs hx) hx⟩

end StyleBundler.Hook.Concurrent

namespace StyleBundler.Build

open Hook Concurrent

variable {t : FileTree} {o : StyleOptions}

/-- The modules of a graph, as they are transformed. -/
def sources (g : ModuleGraph) : List Source :=
  g.nodes.map fun n => ⟨n.module.path, n.module.source⟩

theorem exists_node_of_siteOf? {g : ModuleGraph} {x : Job} {importer : Path} {site : Import.Site}
    (h : siteOf? o (sources g) x = some (importer, site)) :
    ∃ n ∈ g.nodes, n.module.path = importer ∧ site ∈ sitesOf o n.module.path n.module.source := by
  obtain ⟨m, hm, hx⟩ := Option.bind_eq_some_iff.mp h
  obtain ⟨found, hfound, heq⟩ := Option.bind_eq_some_iff.mp hx
  obtain ⟨rfl, rfl⟩ := Prod.mk.inj (Option.some.inj heq)
  obtain ⟨n, hn, rfl⟩ := List.mem_map.mp (List.mem_of_getElem? hm)
  exact ⟨n, hn, rfl, List.mem_of_getElem? hfound⟩

theorem exists_siteOf?_iff {g : ModuleGraph} {a : Asset} :
    (∃ x importer site, siteOf? o (sources g) x = some (importer, site) ∧
      assetFor t o importer site = .ok a) ↔ ∃ n ∈ g.nodes, IsImportedBy t o n a := by
  constructor
  · intro h
    obtain ⟨x, importer, site, hx, hasset⟩ := h
    obtain ⟨n, hn, rfl, hsite⟩ := exists_node_of_siteOf? hx
    exact ⟨n, hn, site, hsite, hasset⟩
  · intro h
    obtain ⟨n, hn, site, hsite, hasset⟩ := h
    obtain ⟨i, hi⟩ := List.getElem?_of_mem hn
    obtain ⟨j, hj⟩ := List.getElem?_of_mem hsite
    refine ⟨⟨i, j⟩, n.module.path, site, ?_, hasset⟩
    simp [siteOf?, sources, hi, hj]

/-- Loads side by side, in whatever order they take their steps. In every state that they reach
each loaded asset has the name of its content, can be referenced, and is in the bundle. All orders
in which all loads succeed give the same modules and the same bundle, and those are the ones that
the transform of a build gives. -/
theorem transform_confluent (t : FileTree) :
    (∀ o ms s, Reachable t o ms s → Asset.ContentsApart s.published →
      ∀ path a, s.store.loaded? path = some a →
        a.name = Asset.nameOf o.bundle.isSome (Digest.shortHashText a.content) ∧
          (∃ b, s.store.referenced? a.reference = some b ∧ b.content = a.content) ∧
          s.bundle.lookup a.name = some ⟨.asset, a.content⟩) ∧
    (∀ o ms s s', Reachable t o ms s → Reachable t o ms s' → s.Succeeded o ms →
      s'.Succeeded o ms → Asset.ContentsApart s.published →
      (∀ i m, ms[i]? = some m →
        ∃ change, s.result? o i m = some change ∧ s'.result? o i m = some change) ∧
        s.bundle = s'.bundle) ∧
    ∀ f c r g g' p, transformAll t (started f c r) g = .ok (g', p) →
      ∀ s, Reachable t (optionsOf f c r) (sources g) s → s.Succeeded (optionsOf f c r) (sources g) →
        Asset.ContentsApart s.published →
        (∀ i n n', g.nodes[i]? = some n → g'.nodes[i]? = some n' → ∃ change,
          s.result? (optionsOf f c r) i ⟨n.module.path, n.module.source⟩ = some (.ok change) ∧
            n'.module.transformed = some (change.codeFor n.module.source)) ∧
          p.context.bundle = s.bundle := by
  refine ⟨?_, ?_, ?_⟩
  · intro o ms s hs hapart path a ha
    have hagree := hs.sound.agree
    obtain ⟨hmem, -⟩ := hagree.loaded path a ha
    exact ⟨(hagree.published a hmem).name_eq, hagree.referenced hapart ha,
      hagree.lookup_bundle hapart hmem⟩
  · intro o ms s s' hs hs' hdone hdone' hapart
    refine ⟨fun i m hm => ?_, ?_⟩
    · exact ⟨_, hs.sound.result?_eq hdone hm, hs'.sound.result?_eq hdone' hm⟩
    · refine hs.sound.agree.bundle_eq hs'.sound.agree hapart fun a => ?_
      rw [hs.sound.mem_published_iff hdone, hs'.sound.mem_published_iff hdone']
  · intro f c r g g' p hall s hs hdone hapart
    obtain ⟨hrewritten, assets, ⟨st, -, -, hagree⟩, hassets, -⟩ := isRewritten_of_transformAll hall
    refine ⟨fun i n n' hn hn' => ?_, ?_⟩
    · obtain ⟨hlength, hpairs⟩ := List.forall₂_iff_get.mp hrewritten
      obtain ⟨hi, rfl⟩ := List.getElem?_eq_some_iff.mp hn
      obtain ⟨hi', rfl⟩ := List.getElem?_eq_some_iff.mp hn'
      obtain ⟨change, hchange, heq⟩ := hpairs i hi hi'
      refine ⟨change, ?_, congrArg (fun n => n.module.transformed) heq⟩
      have hm : (sources g)[i]? = some ⟨g.nodes[i].module.path, g.nodes[i].module.source⟩ := by
        rw [sources, List.getElem?_map, hn, Option.map_some]
      rw [hs.sound.result?_eq hdone hm]
      exact congrArg some hchange
    · refine (hs.sound.agree.bundle_eq hagree hapart fun a => ?_).symm
      rw [hs.sound.mem_published_iff hdone, hassets, exists_siteOf?_iff]

/-- Two modules, each with a stylesheet of its own; the two stylesheets have the same content. -/
theorem transform_confluent_shared :
    let t : FileTree :=
      ⟨[(["one.css"], .file ".a\x7b\x7d".toUTF8), (["two.css"], .file ".a\x7b\x7d".toUTF8)], []⟩
    let g : ModuleGraph :=
      ⟨[⟨.ofSource ⟨"/one.js"⟩ "import './one.css' with \x7b type: 'css' \x7d;\n", []⟩,
        ⟨.ofSource ⟨"/two.js"⟩ "import './two.css' with \x7b type: 'css' \x7d;\n", []⟩]⟩
    let c : Config :=
      ⟨⟨"shared", "0.1.0"⟩, [], Config.standardOutput, Config.standardStyles, ⟨"/"⟩⟩
    let o := optionsOf .minify c ⟨none, none⟩
    ∃ g' p s a, transformAll t (started .minify c ⟨none, none⟩) g = .ok (g', p) ∧
      Reachable t o (sources g) s ∧ s.Succeeded o (sources g) ∧
      Asset.ContentsApart s.published ∧ s.store.loaded? ⟨"/two.css"⟩ = some a ∧
      (∃ b, s.store.referenced? a.reference = some b ∧ b.content = a.content) ∧
      s.bundle.lookup a.name = some ⟨.asset, a.content⟩ ∧ p.context.bundle = s.bundle ∧
      ∀ s', Reachable t o (sources g) s' → s'.Succeeded o (sources g) → s.bundle = s'.bundle := by
  intro t g c o
  -- Each module with its one site and the stylesheet that this leads to.
  let parts : List (ModuleNode × Import.Site × Path) :=
    [(⟨.ofSource ⟨"/one.js"⟩ "import './one.css' with \x7b type: 'css' \x7d;\n", []⟩,
        ⟨.static none, .literal, "./one.css", ⟨7, 18⟩, "/one.js"⟩, ⟨"/one.css"⟩),
      (⟨.ofSource ⟨"/two.js"⟩ "import './two.css' with \x7b type: 'css' \x7d;\n", []⟩,
        ⟨.static none, .literal, "./two.css", ⟨7, 18⟩, "/two.js"⟩, ⟨"/two.css"⟩)]
  have hpart : ∀ n ∈ g.nodes, ∃ x ∈ parts, x.1 = n := fun n hn =>
    List.mem_map.mp (show n ∈ parts.map Prod.fst from hn)
  have hsite : ∀ x ∈ parts, sitesOf o x.1.module.path x.1.module.source = [x.2.1] ∧
      Resolve.isBare x.2.1.specifier = false ∧
      ((Resolve.directoryOf x.1.module.path).join ⟨x.2.1.specifier⟩).normalize = x.2.2 ∧
      Edits.firstError? 0 x.1.module.source.toList 0 [⟨x.2.1.span, ""⟩] = none := by
    decide +kernel
  have hfile : ∀ x ∈ parts,
      t.isFile x.2.2 = true ∧ t.readText x.2.2 = .ok ".a\x7b\x7d" := by
    simp only [FileTree.isFile, FileTree.readText, FileTree.locate, FileTree.checkPath, FileTree.trace]
    decide +kernel
  have hasset : ∀ x ∈ parts, assetFor t o x.1.module.path x.2.1 =
      .ok (.ofContent false x.2.2 ".a\x7b\x7d") := by
    intro x hx
    obtain ⟨hisFile, hread⟩ := hfile x hx
    exact assetFor_of_relative (hsite x hx).2.1 (hsite x hx).2.2.1 hisFile
      (by rw [AssetStore.fetch, hread]; rfl)
  have hrewriting : ∀ n ∈ g.nodes, ∃ change,
      rewriting t o n.module.path n.module.source = .ok change := by
    intro n hn
    obtain ⟨x, hx, rfl⟩ := hpart n hn
    exact exists_rewriting_of_site (hsite x hx).1 (hasset x hx) (hsite x hx).2.2.2
  obtain ⟨g', p, hall⟩ := exists_transformAll_of_rewriting (f := .minify) (c := c)
    (r := ⟨none, none⟩) hrewriting
  have hjobs : ∀ y importer site, siteOf? o (sources g) y = some (importer, site) →
      ∃ path, assetFor t o importer site = .ok (.ofContent false path ".a\x7b\x7d") := by
    intro y importer site hy
    obtain ⟨n, hn, rfl, hmem⟩ := exists_node_of_siteOf? hy
    obtain ⟨x, hx, rfl⟩ := hpart n hn
    rw [(hsite x hx).1, List.mem_singleton] at hmem
    exact ⟨_, hmem ▸ hasset x hx⟩
  obtain ⟨s, hs, hdone⟩ : ∃ s, Reachable t o (sources g) s ∧ s.Succeeded o (sources g) :=
    exists_succeeded fun y importer site hy => (hjobs y importer site hy).imp' _ fun _ h => h
  have hapart : Asset.ContentsApart s.published := by
    have hcontent : ∀ a ∈ s.published, a.content = ".a\x7b\x7d" := by
      intro a ha
      obtain ⟨y, importer, site, hy, hfor⟩ := hs.sound.imported a ha
      obtain ⟨path, hpath⟩ := hjobs y importer site hy
      rw [hfor, Except.ok.injEq] at hpath
      rw [hpath]
      rfl
    intro a ha b hb _
    rw [hcontent a ha, hcontent b hb]
  obtain ⟨a, ha⟩ : ∃ a, s.store.loaded? ⟨"/two.css"⟩ = some a := by
    have hx : parts[1] ∈ parts := List.getElem_mem _
    obtain ⟨y, importer, site, hy, hfor⟩ := exists_siteOf?_iff.mpr
      ⟨parts[1].1, List.mem_map_of_mem hx, parts[1].2.1, by simp [(hsite _ hx).1], hasset _ hx⟩
    obtain ⟨a, -, hown, -, hloaded⟩ := hs.sound.exists_finished hdone hy
    rw [hfor, Except.ok.injEq] at hown
    exact ⟨a, hown ▸ hloaded⟩
  obtain ⟨hstates, horders, hbuild⟩ := transform_confluent t
  obtain ⟨-, href, hfile⟩ := hstates o _ s hs hapart _ a ha
  exact ⟨g', p, s, a, hall, hs, hdone, hapart, ha, href, hfile,
    (hbuild _ c ⟨none, none⟩ g g' p hall s hs hdone hapart).2, fun s' hs' hdone' =>
      (horders o _ s s' hs hs' hdone hdone' hapart).2⟩

end StyleBundler.Build
