import StyleBundler.Build.Assembly
import StyleBundler.Build.Discovery
import StyleBundler.Build.Publication

/-!
A build: the modules that the entrypoints lead to are discovered and transformed, put
together in one output unit per entrypoint, finished by the hooks, and written. All that
comes before the writing leaves the file tree alone.
-/

namespace StyleBundler

structure BuildRequest where
  /-- In place of the output directory of the configuration. -/
  outputDirectory : Option Path
  /-- In place of the packing mode of the configuration. -/
  bundle : Option PackMode
deriving DecidableEq, Repr, Inhabited

structure BuildReport where
  outputs : List Build.WrittenFile
  manifest : Listing String
  diagnostics : List Import.Diagnostic
deriving DecidableEq, Repr, Inhabited

namespace Build

/-- The hooks of a build. -/
def pipeline (c : Config) (o : BuildRequest) : Pipeline :=
  let options := c.styleOptions
  .ofPlugins [.stylesheets (.ofOptions { options with bundle := o.bundle.or options.bundle })]

/-- Transforms modules in order, up to the first that fails. -/
def transformNodes (t : FileTree) (p : Pipeline) :
    List ModuleNode → Except Failure (List ModuleNode × Pipeline)
  | [] => .ok ([], p)
  | n :: ns =>
      match p.transform t n.module.source n.module.path with
      | (.error e, _) => .error (.transforming n.module.path e)
      | (.ok (code, _), p) => do
          let (ns, p) ← transformNodes t p ns
          .ok ({ n with module := { n.module with transformed := some code } } :: ns, p)

/-- Transforms all modules. The transforms start together, so that a failure before the
first stylesheet is read comes before all others, unless there are too many modules. -/
def transformAll (t : FileTree) (p : Pipeline) (g : ModuleGraph) :
    Except Failure (ModuleGraph × Pipeline) :=
  let early := g.nodes.findSome? fun n =>
    (p.earlyFailure? t n.module.source n.module.path).map (Failure.transforming n.module.path)
  match if g.nodes.length ≤ Hook.jointLimit then early else none with
  | some e => .error e
  | none => (transformNodes t p g.nodes).map fun (nodes, p) => (⟨nodes⟩, p)

/-- The output units, one per entrypoint. -/
def chunks (t : FileTree) (g : ModuleGraph) :
    List (String × Path) → Except Failure (List Chunk)
  | [] => .ok []
  | (name, path) :: rest => do
      let place ← (t.canonical path).mapError .entrypoint
      let more ← chunks t g rest
      match g.find? place with
      | some id => .ok (⟨name, g.dependencyOrder id⟩ :: more)
      | none => .ok more

/-- Finishes output units in order and adds them to the files to write. -/
def finishEach (p : Pipeline) : List (Chunk × String) → Except Failure Pipeline
  | [] => .ok p
  | (c, code) :: rest =>
      match p.render code with
      | (.error e, _) => .error e
      | (.ok code, p) => finishEach (p.emit c.fileName .chunk code) rest

/-- Puts the units together and finishes them. -/
def finishUnits (root : Path) (g : ModuleGraph) (p : Pipeline) (cs : List Chunk) :
    Except Failure Pipeline := do
  let filled := cs.filter (!·.moduleIds.isEmpty)
  let codes ← (filled.mapM (unitCode root g)).mapError fun e => .style (.edit e)
  finishEach p (filled.zip codes)

/-- Everything but the writing. -/
def prepare (t : FileTree) (c : Config) (o : BuildRequest) :
    Except Failure (List Chunk × Hook.Context) := do
  let (started, p) := (pipeline c o).start
  started
  let g ← discover t p c.entrypointPaths
  let (g, p) ← transformAll t p g
  let cs ← chunks t g c.entrypointPaths
  let p ← finishUnits c.root g p cs
  .ok (cs, p.generate.context)

/-- Writes what was prepared. -/
def publish (t : FileTree) (directory : Path) (withManifest : Bool) (cs : List Chunk)
    (context : Hook.Context) : FileTree × Except Failure BuildReport :=
  match writeBundle directory t context.bundle with
  | (t, .error e) => (t, .error e)
  | (t, .ok written) =>
      let listing := manifest cs written
      let (t, result) := if withManifest then writeManifest directory t listing else (t, .ok ())
      (t, result.map fun () => ⟨written, listing, context.diagnostics⟩)

end Build

/-- Builds a project. -/
def build (t : FileTree) (c : Config) (o : BuildRequest) :
    FileTree × Except Failure BuildReport :=
  match Build.prepare t c o with
  | .error e => (t, .error e)
  | .ok (cs, context) =>
      Build.publish t (o.outputDirectory.getD c.outputDirectory) c.output.manifest cs context

end StyleBundler
