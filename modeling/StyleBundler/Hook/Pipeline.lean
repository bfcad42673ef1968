import StyleBundler.Hook.Scripted
import StyleBundler.Hook.Stylesheets

/-!
The pipeline of all hooks, run in order over one context. The first answer to a
specifier counts; codes go through all hooks, each taking up what the one before it
made. A failure ends a run, and what was done until then stays.
-/

namespace StyleBundler

inductive Plugin where
  | stylesheets (s : Hook.Stylesheets)
  | scripted (s : Hook.Scripted)
deriving Inhabited

namespace Plugin

open Hook

def start (p : Plugin) (c : Context) : Except Failure Unit × Plugin × Context :=
  match p with
  | .stylesheets s => (.ok (), .stylesheets s.start, c)
  | .scripted s =>
      let (result, c) := s.start c
      (result.mapError .hook, p, c)

def resolve (p : Plugin) (specifier : String) (importer : Option Path) :
    Except Failure Resolution :=
  match p with
  | .stylesheets _ => .ok (Stylesheets.resolve specifier)
  | .scripted s => (s.resolve specifier importer).mapError .hook

def transform (p : Plugin) (t : FileTree) (c : Context) (code : String) (path : Path) :
    Except Failure Change × Plugin × Context :=
  match p with
  | .stylesheets s =>
      let (result, s, c) := s.transform t c code path
      (result.mapError .style, .stylesheets s, c)
  | .scripted s => ((Scripted.apply s.transform code).mapError .hook, p, c)

def render (p : Plugin) (c : Context) (code : String) : Except Failure Change × Context :=
  match p with
  | .stylesheets s =>
      let (result, c) := s.render c code
      (result.mapError .style, c)
  | .scripted s => ((Scripted.apply s.render code).mapError .hook, c)

def generate (p : Plugin) (b : OutputBundle) : OutputBundle :=
  match p with
  | .stylesheets s => s.generate b
  | .scripted s => s.generate b

/-- Runs the start hooks in order. -/
def startEach (c : Context) : List Plugin → Except Failure Unit × List Plugin × Context
  | [] => (.ok (), [], c)
  | p :: ps =>
      match p.start c with
      | (.error e, p, c) => (.error e, p :: ps, c)
      | (.ok (), p, c) =>
          let (result, ps, c) := startEach c ps
          (result, p :: ps, c)

/-- The first answer to a specifier. -/
def resolveFirst (specifier : String) (importer : Option Path) :
    List Plugin → Except Failure Resolution
  | [] => .ok .skip
  | p :: ps =>
      match p.resolve specifier importer with
      | .ok .skip => resolveFirst specifier importer ps
      | answer => answer

/-- Hands a code from hook to hook; the last source map stays. -/
def transformEach (t : FileTree) (path : Path) (c : Context) (code : String)
    (map : Option String) :
    List Plugin → Except Failure (String × Option String) × List Plugin × Context
  | [] => (.ok (code, map), [], c)
  | p :: ps =>
      match p.transform t c code path with
      | (.error e, p, c) => (.error e, p :: ps, c)
      | (.ok .skip, p, c) =>
          let (result, ps, c) := transformEach t path c code map ps
          (result, p :: ps, c)
      | (.ok (.changed code newer), p, c) =>
          let (result, ps, c) := transformEach t path c code (newer.or map) ps
          (result, p :: ps, c)

/-- The failure that a transform runs into before it reads a stylesheet. -/
def earlyFailure? (t : FileTree) (path : Path) (code : String) : List Plugin → Option Failure
  | [] => none
  | .stylesheets s :: ps =>
      let classes := Import.classifyModule s.options.ignoredSchemes code path.moduleId
      match Stylesheets.sites classes with
      | [] => earlyFailure? t path code ps
      | found => (s.earlyFailure? t path found).map .style
  | .scripted s :: ps =>
      match Scripted.apply s.transform code with
      | .error reason => some (.hook reason)
      | .ok .skip => earlyFailure? t path code ps
      | .ok (.changed code _) => earlyFailure? t path code ps

/-- Hands the code of an output unit from hook to hook. -/
def renderEach (c : Context) (code : String) : List Plugin → Except Failure String × Context
  | [] => (.ok code, c)
  | p :: ps =>
      match p.render c code with
      | (.error e, c) => (.error e, c)
      | (.ok .skip, c) => renderEach c code ps
      | (.ok (.changed code _), c) => renderEach c code ps

end Plugin

structure Pipeline where
  plugins : List Plugin
  context : Hook.Context
deriving Inhabited

namespace Pipeline

open Hook

def ofPlugins (ps : List Plugin) : Pipeline := ⟨ps, .empty⟩

def start (p : Pipeline) : Except Failure Unit × Pipeline :=
  let (result, plugins, context) := Plugin.startEach p.context p.plugins
  (result, ⟨plugins, context⟩)

def resolve (p : Pipeline) (specifier : String) (importer : Option Path) :
    Except Failure Resolution :=
  Plugin.resolveFirst specifier importer p.plugins

/-- Transforms the code of a module. -/
def transform (p : Pipeline) (t : FileTree) (code : String) (path : Path) :
    Except Failure (String × Option String) × Pipeline :=
  let (result, plugins, context) := Plugin.transformEach t path p.context code none p.plugins
  (result, ⟨plugins, context⟩)

/-- The failure that transforming a module runs into before it reads a stylesheet. -/
def earlyFailure? (p : Pipeline) (t : FileTree) (code : String) (path : Path) :
    Option Failure :=
  Plugin.earlyFailure? t path code p.plugins

/-- Finishes the code of an output unit. -/
def render (p : Pipeline) (code : String) : Except Failure String × Pipeline :=
  let (result, context) := Plugin.renderEach p.context code p.plugins
  (result, { p with context })

def emit (p : Pipeline) (name : String) (kind : OutputKind) (source : String) : Pipeline :=
  { p with context := p.context.emit name kind source }

/-- Lets every hook have its say about the files to write. -/
def generate (p : Pipeline) : Pipeline :=
  let bundle := p.plugins.foldl (fun b q => q.generate b) p.context.bundle
  { p with context := { p.context with bundle } }

end Pipeline
end StyleBundler
