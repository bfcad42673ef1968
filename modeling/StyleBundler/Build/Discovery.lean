import StyleBundler.Config
import StyleBundler.Dependency
import StyleBundler.Graph
import StyleBundler.Hook.Pipeline

/-!
Discovery of the module graph. From the entrypoints on, every file that a module leads
to is read once and becomes a module under its path without dots; specifiers that the
hooks keep out, or that lead to no file, are left alone.
-/

namespace StyleBundler.Build

/-- The file that a specifier leads to, when it is part of the build. -/
def dependencyPath? (t : FileTree) (p : Pipeline) (importer : Path) (specifier : String) :
    Except Failure (Option Path) :=
  match p.resolve specifier (some importer) with
  | .error e => .error e
  | .ok .external => .ok none
  | .ok (.resolved path) => .ok (some path)
  | .ok .skip => .ok (Resolve.script? t specifier importer)

/-- Follows one specifier of a module, given how to visit the file it leads to. -/
def follow (t : FileTree) (p : Pipeline)
    (visit : ModuleGraph → Path → Except Failure (Nat × ModuleGraph))
    (importer : Path) (id : Nat) (g : ModuleGraph) (specifier : String) :
    Except Failure ModuleGraph := do
  match ← dependencyPath? t p importer specifier with
  | none => .ok g
  | some path =>
      let (target, g) ← visit g path
      .ok <| (g.addDependency id target).modify id fun m =>
        { m with internalImports := m.internalImports ++ [specifier] }

/-- Adds the module of a file and all that it leads to; `depth` bounds the length of the
chain of modules that are being visited. -/
def visit (t : FileTree) (p : Pipeline) :
    Nat → ModuleGraph → Path → Except Failure (Nat × ModuleGraph)
  | 0, _, path => .error (.modulePath path .notFound)
  | depth + 1, g, path => do
      let place ← (t.canonical path).mapError (.modulePath path)
      match g.find? place with
      | some id => .ok (id, g)
      | none =>
          let source ← (t.readText place).mapError (.moduleText place)
          let (id, g) := g.addModule (.ofSource place source)
          let g ← (Dependency.dependencies source).foldlM
            (follow t p (visit t p depth) place id) g
          .ok (id, g)

/-- A chain of modules being visited repeats no file, and only its last one can be known
already. -/
def visitDepth (t : FileTree) : Nat := t.entries.length + 1

/-- The graph of all modules that the entrypoints lead to. -/
def discover (t : FileTree) (p : Pipeline) (entrypoints : List (String × Path)) :
    Except Failure ModuleGraph :=
  entrypoints.foldlM
    (fun g (_, path) => (visit t p (visitDepth t) g path).map (·.2)) ModuleGraph.empty

end StyleBundler.Build
