import StyleBundler.Edit
import StyleBundler.Graph
import StyleBundler.Script.ImportNode

/-!
The code of an output unit: its modules one after the other, each under a line with its
path and without its imports of modules in the same unit.
-/

namespace StyleBundler.Build

open Script

/-- The statements of a module that load modules of its own unit. -/
def internalDeclarations (m : ScriptModule) : List ImportDeclaration :=
  (importNodes m.code).filterMap fun node =>
    match node with
    | .declaration d => if m.internalImports.contains d.source then some d else none
    | .call _ => none

/-- The code of a module without these statements. -/
def standaloneCode (m : ScriptModule) : Except EditError String :=
  ((internalDeclarations m).foldl (fun s d => s.remove d.span) Edits.empty).applyText m.code

/-- How a module is named in the unit. -/
def label (root : Path) (m : ScriptModule) : String :=
  ((m.path.relativeTo? root).getD m.path).text

/-- A module as it stands in the unit, with a line break at its end. -/
def moduleText (root : Path) (m : ScriptModule) : Except EditError String :=
  (standaloneCode m).map fun code =>
    let text := "// " ++ label root m ++ "\n" ++ code
    if text.endsWith "\n" then text else text ++ "\n"

def unitCode (root : Path) (g : ModuleGraph) (c : Chunk) : Except EditError String :=
  ((c.moduleIds.filterMap g.module?).mapM (moduleText root)).map String.join

end StyleBundler.Build
