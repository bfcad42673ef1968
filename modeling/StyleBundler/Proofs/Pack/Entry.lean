import StyleBundler.Pack.Plan
import StyleBundler.Proofs.Import.Node

/-!
The entry of a node in the plan of a unit: it depends on whether the node imports a stylesheet,
on its specifier and on what it binds, and moves with the node.
-/

namespace StyleBundler

open Script

/-- The entry with its span moved. -/
def PlannedImport.move (f : Nat → Nat) (e : PlannedImport) : PlannedImport :=
  { e with span := e.span.move f }

/-- The entry is a declaration, which goes away; a call gives way to another. -/
def PlannedImport.isDeclaration (e : PlannedImport) : Bool :=
  match e.binding with
  | .static .. => true
  | .dynamic .. => false

namespace Plan

/-- The entry of a node that imports an asset by a reference. -/
def entryOf (reference : String) : ImportNode → PlannedImport
  | .declaration d => ⟨.static d.defaultBinding d.namespaceBinding, reference, d.span⟩
  | .call c => ⟨(callBinding c).1, reference, (callBinding c).2⟩

theorem importOf?_eq (store : AssetStore) (n : ImportNode) :
    importOf? store n =
      if n.isCss then
        (Import.specifierText? n.specifier).bind fun reference =>
          if (store.referenced? reference).isSome then some (entryOf reference n) else none
      else none := by
  cases n with
  | declaration d =>
      cases hcss : Import.isCssDeclaration d <;>
        simp [importOf?, ImportNode.isCss, hcss, ImportNode.specifier, Import.specifierText?, entryOf]
  | call c =>
      cases hcss : Import.cssKeyword? c with
      | none => simp [importOf?, ImportNode.isCss, hcss]
      | some keyword =>
          simp only [importOf?, ImportNode.isCss, hcss, Option.isSome_some, if_true,
            ImportNode.specifier, entryOf]
          cases Import.specifierText? c.argument <;> rfl

theorem entryOf_move (f : Nat → Nat) (reference : String) (n : ImportNode) :
    entryOf reference (n.move f) = (entryOf reference n).move f := by
  cases n with
  | declaration d => rfl
  | call c =>
      obtain ⟨span, argument, options, binding⟩ := c
      cases binding with
      | none => rfl
      | some b =>
          obtain ⟨name, awaited, initialiser⟩ := b
          cases awaited <;> rfl

theorem entryOf_withSpecifier (value reference : String) (n : ImportNode) :
    entryOf reference (n.withSpecifier value) = entryOf reference n := by
  cases n <;> rfl

end Plan
end StyleBundler
