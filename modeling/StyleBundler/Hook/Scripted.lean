import StyleBundler.Content
import StyleBundler.Hook.Context

/-!
Hooks given as data.
-/

namespace StyleBundler.Hook

/-- What scripted hooks say about specifiers with a certain ending. -/
inductive ScriptedAnswer where
  | external
  /-- The specifier, taken from the importer. -/
  | fromImporter
  | refusal
  | path (p : Path)
deriving DecidableEq, Repr, Inhabited

/-- A change of code, with the text of the source map that goes with it. -/
structure ScriptedChange where
  change : ContentEdit
  map : Option String
deriving DecidableEq, Repr, Inhabited

structure Scripted where
  name : String
  /-- Endings of specifiers, each with an answer; the first that fits counts. -/
  answers : List (String × ScriptedAnswer)
  transform : Option ScriptedChange
  render : Option ScriptedChange
  /-- The name of an asset to publish at the start; it holds the hooks' name. -/
  startAsset : Option String
  /-- What to give up with at the start. -/
  startFailure : Option String
  /-- Files with this at the start of their names are dropped in the end. -/
  dropMark : Option String
deriving DecidableEq, Repr, Inhabited

namespace Scripted

def start (s : Scripted) (c : Context) : Except String Unit × Context :=
  let c :=
    match s.startAsset with
    | some name => c.emitAsset name s.name
    | none => c
  match s.startFailure with
  | some reason => (.error reason, c)
  | none => (.ok (), c)

def resolve (s : Scripted) (specifier : String) (importer : Option Path) :
    Except String Resolution :=
  match s.answers.find? fun (ending, _) => specifier.endsWith ending with
  | none => .ok .skip
  | some (_, .external) => .ok .external
  | some (_, .fromImporter) => .ok (.resolved ((importer.getD ⟨"none"⟩).join ⟨specifier⟩))
  | some (_, .refusal) => .error ("cannot resolve " ++ specifier)
  | some (_, .path p) => .ok (.resolved p)

/-- Applies a change of code, if there is one. -/
def apply (change : Option ScriptedChange) (code : String) : Except String Change :=
  match change with
  | none => .ok .skip
  | some r => (r.change.apply code).map fun code => .changed code r.map

def generate (s : Scripted) (b : OutputBundle) : OutputBundle :=
  match s.dropMark with
  | some mark => OutputBundle.dropMarked mark b
  | none => b

end Scripted
end StyleBundler.Hook
