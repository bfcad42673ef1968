import StyleBundler.Digest
import StyleBundler.Path
import StyleBundler.Text.Split

/-!
Assets: stylesheets after their transform, named by the hash of their content. Two
stylesheets with the same content share a name. The assets of a build that packs them
are only staged; the mark in front of their names tells them from what is kept.
-/

namespace StyleBundler

structure Asset where
  /-- Where the stylesheet was read. -/
  path : Path
  hash : String
  /-- The name of the published file. -/
  name : String
  /-- The content after the transform. -/
  content : String
deriving DecidableEq, Repr, Inhabited

namespace Asset

/-- The mark of a staged asset. -/
def stagingMark : String := "__sheetpack_"

/-- How the names of all assets start, the mark aside. -/
def baseName : String := "styles"

def nameOf (staging : Bool) (hash : String) : String :=
  (if staging then stagingMark else "") ++ baseName ++ "-" ++ hash ++ ".css"

def ofContent (staging : Bool) (path : Path) (content : String) : Asset :=
  let hash := Digest.shortHashText content
  ⟨path, hash, nameOf staging hash, content⟩

/-- The specifier under which scripts import the asset. -/
def reference (a : Asset) : String := "./" ++ a.name

/-- The name in a reference, which may leave out its leading `./`. -/
def nameIn (reference : String) : String :=
  match Text.after? ['.', '/'] reference.toList with
  | some name => String.ofList name
  | none => reference

end Asset
end StyleBundler
