import StyleBundler.Asset.Store
import StyleBundler.Import.Classification

/-!
The plan of an output unit: its imports of assets, in source order, each with the part
of the unit that packing replaces.
-/

namespace StyleBundler

/-- What an import of an asset binds. -/
inductive PlannedBinding where
  /-- A declaration, by the local names of the default export and of the namespace. -/
  | static (localName namespaceName : Option String)
  /-- A call, by the variable that it initialises and whether it is awaited there. -/
  | dynamic (variableName : Option String) (awaited : Bool)
deriving DecidableEq, Repr, Inhabited

structure PlannedImport where
  binding : PlannedBinding
  /-- The specifier of the asset, as the unit spells it. -/
  reference : String
  /-- What packing replaces: a declaration, or a call with the `await` before it. -/
  span : Span
deriving DecidableEq, Repr, Inhabited

/-- The name of the entry's sheet inside a packed artifact. -/
def PlannedImport.sheetName (e : PlannedImport) : String := Asset.nameIn e.reference

abbrev Plan := List PlannedImport

namespace Plan

open Script

/-- The binding of a call, with the span to replace. -/
def callBinding (c : ImportCall) : PlannedBinding × Span :=
  match c.binding with
  | some b => (.dynamic (some b.name) b.awaited, if b.awaited then b.initialiser else c.span)
  | none => (.dynamic none false, c.span)

/-- The entry of a node that imports an asset of the store. -/
def importOf? (store : AssetStore) : ImportNode → Option PlannedImport
  | .declaration d =>
      if Import.isCssDeclaration d && (store.referenced? d.source).isSome then
        some ⟨.static d.defaultBinding d.namespaceBinding, d.source, d.span⟩
      else none
  | .call c =>
      match Import.cssKeyword? c, Import.specifierText? c.argument with
      | some _, some reference =>
          if (store.referenced? reference).isSome then
            let (binding, span) := callBinding c
            some ⟨binding, reference, span⟩
          else none
      | _, _ => none

/-- The plan of a unit's code. -/
def scan (store : AssetStore) (code : String) : Plan :=
  (importNodes code).filterMap (importOf? store)

/-- The entries whose reference is not in `seen` and has not come up before. -/
def uniqueFrom (seen : List String) : Plan → Plan
  | [] => []
  | e :: es =>
      if seen.contains e.reference then uniqueFrom seen es
      else e :: uniqueFrom (e.reference :: seen) es

/-- The first entry for each reference. -/
def unique (p : Plan) : Plan := uniqueFrom [] p

end Plan

/-- A file that holds the packed sheets of one unit. -/
structure Artifact where
  name : String
  source : String
deriving DecidableEq, Repr, Inhabited

namespace Artifact

/-- How the names of all artifacts start. -/
def baseName : String := "bundle"

def ofSource (source : String) (extension : String) : Artifact :=
  ⟨Digest.fileNameText baseName source extension, source⟩

end Artifact

/-- A promise of a value that is already there, as an import call gives one. -/
def settledPromise (value : String) (awaited : Bool) : String :=
  (if awaited then "await " else "") ++ "Promise.resolve(" ++ value ++ ")"

end StyleBundler
