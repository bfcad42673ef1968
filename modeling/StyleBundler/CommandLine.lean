import StyleBundler.CommandLine.Arguments
import StyleBundler.CommandLine.Report

/-!
The two commands over a file tree. `build` builds the project of a configuration file;
`check` tells how the stylesheet imports of one module would be handled, and publishes
nothing.
-/

namespace StyleBundler.CommandLine

/-- What a command leads to. -/
structure Outcome where
  /-- The text for standard output. -/
  output : String
  /-- The text for standard error, given how long the command took. -/
  notes : String → String
  files : FileTree
  result : Except Failure Unit

/-- Reads a configuration and builds its project. -/
def runBuild (t : FileTree) (config : Path) (options : BuildRequest) : Outcome :=
  match Config.load t config with
  | .error e => ⟨"", fun _ => banner, t, .error e⟩
  | .ok c =>
      match build t c options with
      | (t, .error e) => ⟨"", fun _ => banner ++ startNote c, t, .error e⟩
      | (t, .ok r) =>
          ⟨"", fun elapsed => banner ++ startNote c ++ buildNote elapsed r, t, .ok ()⟩

/-- The options of the configuration file, or the standard ones when there is no such
file. -/
def checkOptions (t : FileTree) (config : Path) : Except Failure StyleOptions :=
  if t.isFile config then (Config.load t config).map Config.styleOptions
  else .ok .standard

/-- The module to check, under its path without dots. -/
def checkedModule (t : FileTree) (path : Path) : Except Failure (Path × String) := do
  let place ← (t.canonical path).mapError (.modulePath path)
  let source ← (t.readText place).mapError (.moduleText place)
  .ok (place, source)

/-- The code of a module after the hooks, with its source map. -/
def printedModule (code : String) (map : Option String) : String :=
  code ++ "\n" ++ (map.map (· ++ "\n")).getD ""

/-- Tells how the stylesheet imports of a module would be handled. -/
def runCheck (t : FileTree) (config path : Path) (print : Bool) : Outcome :=
  let start : Except Failure (StyleOptions × Path × String) := do
    let options ← checkOptions t config
    let (place, source) ← checkedModule t path
    .ok (options, place, source)
  match start with
  | .error e => ⟨"", fun _ => banner, t, .error e⟩
  | .ok (options, place, source) =>
      let lines := String.join <|
        (Import.classifyModule options.ignoredSchemes source place.moduleId).map importLine
      let p := (Pipeline.ofPlugins [.stylesheets (.ofOptions options)]).start.2
      match p.transform t source place with
      | (.error e, _) => ⟨lines, fun _ => banner, t, .error e⟩
      | (.ok (code, map), p) =>
          ⟨lines ++ if print then printedModule code map else "",
            fun _ => banner ++ checkNote p.context, t, .ok ()⟩

def run (t : FileTree) (i : Invocation) : Outcome :=
  match i.command with
  | .build options => runBuild t i.config options
  | .check path print => runCheck t i.config path print

end StyleBundler.CommandLine
