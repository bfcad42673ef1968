import StyleBundler.Proofs.Build.Transformed

/-!
The phases of a build. Whoever minifies the stylesheets, a build is one that prepares and then
publishes (`buildWith`), and what it prepares comes out of one phase after the other
(`exists_phases`).
-/

namespace StyleBundler.Build

open Hook

/-- Everything but the writing, with `f` to minify stylesheets. -/
def prepareWith (f : ContentTransform) (t : FileTree) (c : Config) (r : BuildRequest) :
    Except Failure (List Chunk × Context) := do
  let g ← discover t (started f c r) c.entrypointPaths
  let (g, p) ← transformAll t (started f c r) g
  let cs ← chunks t g c.entrypointPaths
  let p ← finishUnits c.root g p cs
  .ok (cs, p.generate.context)

/-- The directory that a build writes to. -/
def directoryOf (c : Config) (r : BuildRequest) : Path :=
  r.outputDirectory.getD c.outputDirectory

/-- Builds a project, with `f` to minify stylesheets. -/
def buildWith (f : ContentTransform) (t : FileTree) (c : Config) (r : BuildRequest) :
    FileTree × Except Failure BuildReport :=
  match prepareWith f t c r with
  | .error e => (t, .error e)
  | .ok (cs, context) => publish t (directoryOf c r) c.output.manifest cs context

theorem build_eq (t : FileTree) (c : Config) (r : BuildRequest) :
    build t c r = buildWith .minify t c r := rfl

variable {f : ContentTransform} {t : FileTree} {c : Config} {r : BuildRequest} {cs : List Chunk}
  {context : Context}

/-- What the phases of a build hand to each other: the modules that were found, those modules
transformed together with the hooks at that time, and the units. -/
structure Phases (f : ContentTransform) (t : FileTree) (c : Config) (r : BuildRequest)
    (g g' : ModuleGraph) (p : Pipeline) (cs : List Chunk) (context : Context) : Prop where
  discovered : discover t (started f c r) c.entrypointPaths = .ok g
  transformed : transformAll t (started f c r) g = .ok (g', p)
  divided : chunks t g' c.entrypointPaths = .ok cs
  finished : ∃ p', finishUnits c.root g' p cs = .ok p' ∧ context = p'.generate.context

theorem exists_phases (h : prepareWith f t c r = .ok (cs, context)) :
    ∃ g g' p, Phases f t c r g g' p cs context := by
  simp only [prepareWith, bind_eq_ok_iff] at h
  obtain ⟨g, hdiscover, ⟨g', p⟩, htransform, cs, hchunks, p', hfinish, heq⟩ := h
  cases heq
  exact ⟨g, g', p, hdiscover, htransform, hchunks, p', hfinish, rfl⟩

/-- The phases of a build, run. -/
def phases? (f : ContentTransform) (t : FileTree) (c : Config) (r : BuildRequest) :
    Option (ModuleGraph × ModuleGraph × Pipeline × List Chunk × Context) := do
  let g ← (discover t (started f c r) c.entrypointPaths).toOption
  let (g', p) ← (transformAll t (started f c r) g).toOption
  let cs ← (chunks t g' c.entrypointPaths).toOption
  let p' ← (finishUnits c.root g' p cs).toOption
  some (g, g', p, cs, p'.generate.context)

variable {g g' : ModuleGraph} {p : Pipeline}

theorem exists_phases_of_run
    {check : ModuleGraph × ModuleGraph × Pipeline × List Chunk × Context → Bool}
    (h : (phases? f t c r).any check = true) :
    ∃ g g' p cs context, Phases f t c r g g' p cs context ∧
      check (g, g', p, cs, context) = true := by
  obtain ⟨⟨g, g', p, cs, context⟩, hrun, hcheck⟩ := (Option.any_eq_true _ _).mp h
  simp only [phases?, bind, Option.bind_eq_some_iff, toOption_eq_some_iff] at hrun
  obtain ⟨g, hdiscover, ⟨g', p⟩, htransform, cs, hchunks, p', hfinish, heq⟩ := hrun
  cases heq
  exact ⟨g, g', p, cs, _, ⟨hdiscover, htransform, hchunks, p', hfinish, rfl⟩, hcheck⟩

theorem Phases.prepareWith_eq (h : Phases f t c r g g' p cs context) :
    prepareWith f t c r = .ok (cs, context) := by
  obtain ⟨p', hfinish, rfl⟩ := h.finished
  simp only [prepareWith, h.discovered, h.transformed, h.divided, hfinish, bind, Except.bind]

/-- A build goes through its phases in one way. -/
theorem Phases.unique {g₁ g₁' : ModuleGraph} {p₁ : Pipeline} {cs₁ : List Chunk} {context₁ : Context}
    (h : Phases f t c r g g' p cs context) (h₁ : Phases f t c r g₁ g₁' p₁ cs₁ context₁) :
    g = g₁ ∧ g' = g₁' ∧ p = p₁ ∧ cs = cs₁ ∧ context = context₁ := by
  obtain rfl := Except.ok.inj (h.discovered.symm.trans h₁.discovered)
  obtain ⟨rfl, rfl⟩ := Prod.mk.inj (Except.ok.inj (h.transformed.symm.trans h₁.transformed))
  obtain ⟨rfl, rfl⟩ := Prod.mk.inj
    (Except.ok.inj (h.prepareWith_eq.symm.trans h₁.prepareWith_eq))
  exact ⟨rfl, rfl, rfl, rfl, rfl⟩

end StyleBundler.Build
