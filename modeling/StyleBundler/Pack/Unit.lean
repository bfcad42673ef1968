import StyleBundler.Pack.Combined
import StyleBundler.Pack.Exported

/-!
Packing an output unit: its imports of assets give way to reads from one artifact.
-/

namespace StyleBundler

/-- An output unit after packing. -/
structure PackedUnit where
  code : String
  /-- Missing when nothing in the unit reads a packed sheet. -/
  artifact : Option Artifact
  plan : Plan
deriving DecidableEq, Repr, Inhabited

/-- Packs a unit; nothing when it imports no asset of the store. -/
def PackedUnit.ofCode (store : AssetStore) (mode : PackMode) (keyword : Script.AttributeKeyword)
    (code : String) : Except EditError (Option PackedUnit) :=
  let plan := Plan.scan store code
  if plan.isEmpty then .ok none
  else
    let (edits, artifact) : Edits × Option Artifact :=
      match mode with
      | .combined => (Combined.edits store keyword plan, some (Combined.artifact store plan))
      | .exportedModules => (Exported.edits store plan, Exported.artifact? store plan)
    (edits.applyText code).map fun code => some ⟨code, artifact, plan⟩

end StyleBundler
