import StyleBundler.Path

/-!
The graph of script modules. A module has the number of its place, a path that no other
module shares, and the numbers of the modules that it depends on, in the order in which
they were first added. `dependencyOrder` lists what a module reaches, each dependency
before the modules that need it unless the two need each other.
-/

namespace StyleBundler

structure ScriptModule where
  path : Path
  source : String
  /-- Specifiers that lead to other modules of the graph. -/
  internalImports : List String
  /-- The code after the transform hooks, when they have run. -/
  transformed : Option String
deriving DecidableEq, Repr, Inhabited

namespace ScriptModule

def ofSource (path : Path) (source : String) : ScriptModule := ⟨path, source, [], none⟩

def code (m : ScriptModule) : String := m.transformed.getD m.source

end ScriptModule

/-- A module with the numbers of its dependencies. -/
structure ModuleNode where
  module : ScriptModule
  dependencies : List Nat
deriving DecidableEq, Repr, Inhabited

structure ModuleGraph where
  nodes : List ModuleNode
deriving DecidableEq, Repr, Inhabited

namespace ModuleGraph

def empty : ModuleGraph := ⟨[]⟩

def size (g : ModuleGraph) : Nat := g.nodes.length

def ids (g : ModuleGraph) : List Nat := List.range g.size

def module? (g : ModuleGraph) (id : Nat) : Option ScriptModule := (g.nodes[id]?).map (·.module)

def dependencies (g : ModuleGraph) (id : Nat) : List Nat :=
  ((g.nodes[id]?).map (·.dependencies)).getD []

/-- The number of the module with that path, in any spelling. -/
def find? (g : ModuleGraph) (path : Path) : Option Nat :=
  g.nodes.findIdx? fun n => decide (n.module.path.Same path)

/-- Adds a module; one with a known path stays as it is. -/
def addModule (g : ModuleGraph) (m : ScriptModule) : Nat × ModuleGraph :=
  match g.find? m.path with
  | some id => (id, g)
  | none => (g.size, ⟨g.nodes ++ [⟨m, []⟩]⟩)

def modify (g : ModuleGraph) (id : Nat) (f : ScriptModule → ScriptModule) : ModuleGraph :=
  ⟨g.nodes.modify id fun n => { n with module := f n.module }⟩

/-- Adds an edge once; one from an unknown module is dropped. -/
def addDependency (g : ModuleGraph) (source target : Nat) : ModuleGraph :=
  ⟨g.nodes.modify source fun n =>
    if n.dependencies.contains target then n
    else { n with dependencies := n.dependencies ++ [target] }⟩

/-- What a walk has met, and what it has finished with, in order. -/
structure Walk where
  visited : List Nat
  order : List Nat
deriving DecidableEq, Repr

/-- Visits a module, its dependencies first; `depth` bounds the length of the chain of
modules that are being visited. -/
def visit (g : ModuleGraph) : Nat → Walk → Nat → Walk
  | 0, w, _ => w
  | depth + 1, w, id =>
      if w.visited.contains id then w
      else
        let inner := (g.dependencies id).foldl (visit g depth) ⟨id :: w.visited, w.order⟩
        ⟨inner.visited, inner.order ++ [id]⟩

/-- The modules that `start` reaches, dependencies before their importers. A chain of
modules being visited repeats none, and only its last one can be unknown. -/
def dependencyOrder (g : ModuleGraph) (start : Nat) : List Nat :=
  (visit g (g.size + 1) ⟨[], []⟩ start).order

end ModuleGraph

/-- The modules that are put together in one output file, in order. -/
structure Chunk where
  name : String
  moduleIds : List Nat
deriving DecidableEq, Repr, Inhabited

def Chunk.fileName (c : Chunk) : String := c.name ++ ".js"

end StyleBundler
