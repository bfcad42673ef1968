import StyleBundler.Failure
import StyleBundler.Options
import StyleBundler.Toml.Document

/-!
The project configuration. A section may be written as a table, or as an array that
gives its settings in order; settings that are not known are passed over, and a date
counts as a section with none of them. A choice is its name, or a table with that name
as its only key and nothing under it.
-/

namespace StyleBundler

structure Project where
  name : String
  version : String
deriving DecidableEq, Repr, Inhabited

structure OutputSettings where
  directory : String
  manifest : Bool
deriving DecidableEq, Repr, Inhabited

inductive TransformKind where
  | minify
deriving DecidableEq, Repr, Inhabited

structure StyleSettings where
  bundle : Option PackMode
  transform : Option TransformKind
  ignoredSchemes : List String
  keyword : Script.AttributeKeyword
deriving DecidableEq, Repr, Inhabited

structure Config where
  project : Project
  /-- A name and a path each, ordered by name. -/
  entrypoints : List (String × String)
  output : OutputSettings
  css : StyleSettings
  root : Path
deriving DecidableEq, Repr, Inhabited

namespace Config

open Toml (Value)

/-- A setting of a section by its name or its place; `none` when the value is no
section. -/
def setting? (section? : Value) (place : Nat) (name : String) : Option (Option Value) :=
  match section? with
  | .table entries => some (entries.lookup name)
  | .array items => some items[place]?
  | .datetime _ => some none
  | _ => none

/-- A setting that may be missing. -/
def settingOr {α : Type} (read : Value → Option α) (standard : α) (section? : Value)
    (place : Nat) (name : String) : Option α := do
  match ← setting? section? place name with
  | some value => read value
  | none => some standard

def asString? : Value → Option String
  | .string s => some s
  | _ => none

def asBoolean? : Value → Option Bool
  | .boolean b => some b
  | _ => none

def asStrings? : Value → Option (List String)
  | .array items => items.mapM asString?
  | _ => none

def isNothing : Value → Bool
  | .table entries => entries.isEmpty
  | .array items => items.isEmpty
  | _ => false

/-- The name of a choice: a text, or the only key of a table with nothing under it. -/
def choiceName? : Value → Option String
  | .string s => some s
  | .table [(key, value)] => if isNothing value then some key else none
  | _ => none

def asChoice? {α : Type} (ofName? : String → Option α) (v : Value) : Option α :=
  (choiceName? v).bind ofName?

def modeNamed? (s : String) : Option PackMode :=
  [PackMode.combined, PackMode.exportedModules].find? (·.name == s)

def transformNamed? (s : String) : Option TransformKind :=
  if s = "minify" then some .minify else none

def project? (v : Value) : Option Project := do
  let name ← (← setting? v 0 "name").bind asString?
  let version ← settingOr asString? "0.1.0" v 1 "version"
  some ⟨name, version⟩

def standardOutput : OutputSettings := ⟨"dist", true⟩

def output? (v : Value) : Option OutputSettings := do
  let directory ← settingOr asString? standardOutput.directory v 0 "dir"
  let manifest ← settingOr asBoolean? standardOutput.manifest v 1 "manifest"
  some ⟨directory, manifest⟩

def standardStyles : StyleSettings := ⟨none, none, Import.defaultSchemes, .withClause⟩

def styles? (v : Value) : Option StyleSettings := do
  let bundle ← settingOr (fun v => (asChoice? modeNamed? v).map some) none v 0 "bundle"
  let transform ←
    settingOr (fun v => (asChoice? transformNamed? v).map some) none v 1 "transform"
  let schemes ← settingOr asStrings? standardStyles.ignoredSchemes v 2 "ignored_schemes"
  let keyword ←
    settingOr (asChoice? Script.AttributeKeyword.ofText?) .withClause v 3 "import_attribute"
  some ⟨bundle, transform, schemes, keyword⟩

/-- The key under which a date shows as a table. -/
def datetimeKey : String := "$__toml_private_datetime"

def entrypoints? : Value → Option (List (String × String))
  | .table entries => entries.mapM fun (name, value) => (asString? value).map (name, ·)
  | .datetime text => some [(datetimeKey, text)]
  | _ => none

/-- Reads the text of a configuration for a project in the given directory. -/
def parse? (text : String) (root : Path) : Option Config := do
  let document := Value.table (← Toml.parse? text)
  let project ← (← setting? document 0 "project").bind project?
  let entrypoints ← settingOr entrypoints? [] document 1 "entrypoints"
  let output ← settingOr output? standardOutput document 2 "output"
  let css ← settingOr styles? standardStyles document 3 "css"
  some ⟨project, entrypoints.mergeSort (fun a b => a.1 ≤ b.1), output, css, root⟩

def outputDirectory (c : Config) : Path := c.root.join ⟨c.output.directory⟩

/-- The names and paths of the entrypoints, in order. -/
def entrypointPaths (c : Config) : List (String × Path) :=
  c.entrypoints.map fun (name, path) => (name, c.root.join ⟨path⟩)

def styleOptions (c : Config) : StyleOptions :=
  ⟨c.css.transform.map fun _ => .minify, c.css.bundle, c.css.ignoredSchemes, c.css.keyword⟩

/-- There has to be an entrypoint, and every one has to be a file. -/
def validate (t : FileTree) (c : Config) : Except Failure Unit :=
  if c.entrypoints.isEmpty then .error .noEntrypoints
  else
    match c.entrypointPaths.find? fun entry => !t.isFile entry.2 with
    | some (name, path) => .error (.missingEntrypoint name path)
    | none => .ok ()

/-- Reads and checks a configuration file. The project's directory is that of the
file. -/
def load (t : FileTree) (path : Path) : Except Failure Config := do
  let full :=
    if path.isAbsolute then path else (FileTree.pathOf t.workingDirectory).join path
  match t.readText full with
  | .error e => .error (.configFile full e)
  | .ok text =>
      match parse? text (full.parent?.getD ⟨"."⟩) with
      | none => .error .configText
      | some config => do
          config.validate t
          .ok config

end Config
end StyleBundler
