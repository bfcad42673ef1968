import StyleBundler.Text.Split

/-!
File paths. A path keeps the text it was written with; its components leave out
repeated slashes and inner dots, and two paths with the same components are the same
path (`Path.Same`). Normalising is lexical: a name is dropped together with the `..`
after it.
-/

namespace StyleBundler

structure Path where
  text : String
deriving DecidableEq, Repr, Inhabited

namespace Path

open Text

inductive Component where
  | root
  /-- A dot at the start of a relative path. -/
  | current
  | parent
  | name (s : String)
deriving DecidableEq, Repr, Inhabited

def Component.text : Component → String
  | .root => "/"
  | .current => "."
  | .parent => ".."
  | .name s => s

def isAbsolute (p : Path) : Bool := p.text.toList.head? == some '/'

/-- Empty pieces and dots name no place of their own. -/
def isIdle (piece : List Char) : Bool := piece.isEmpty || piece == ['.']

def pieceComponent (piece : List Char) : Component :=
  if piece = ['.', '.'] then .parent else .name (String.ofList piece)

def componentsOf (cs : List Char) : List Component :=
  let pieces := splitOn '/' cs
  let first : List Component :=
    if cs.head? = some '/' then [.root]
    else if pieces.head? = some ['.'] then [.current]
    else []
  first ++ (pieces.filter fun piece => !isIdle piece).map pieceComponent

def components (p : Path) : List Component := componentsOf p.text.toList

/-- Two spellings of one path. -/
def Same (p q : Path) : Prop := p.components = q.components

instance (p q : Path) : Decidable (Same p q) := by unfold Same; infer_instance

/-- Puts a path behind another one. An absolute path replaces it. -/
def join (p q : Path) : Path :=
  if q.isAbsolute then q
  else if p.text.isEmpty || p.text.toList.getLast? == some '/' then ⟨p.text ++ q.text⟩
  else ⟨p.text ++ "/" ++ q.text⟩

/-- The path with these components, in order. -/
def ofComponents (cs : List Component) : Path := cs.foldl (fun p c => p.join ⟨c.text⟩) ⟨""⟩

/-- The slash or dot that a path starts with. -/
def lead (cs : List Char) : List Char :=
  if cs.head? = some '/' then ['/']
  else if (splitOn '/' cs).head? = some ['.'] then ['.']
  else []

/-- The pieces behind the start of a path, without idle ones at the end. -/
def bodyPieces (cs : List Char) : List (List Char) :=
  ((splitOn '/' (cs.drop (lead cs).length)).reverse.dropWhile isIdle).reverse

/-- The path without its last component; a path without names or with only the root
has none. -/
def parent? (p : Path) : Option Path :=
  let cs := p.text.toList
  match (bodyPieces cs).reverse with
  | _ :: front =>
      some ⟨String.ofList (lead cs ++ joinWith '/' (front.dropWhile isIdle).reverse)⟩
  | [] => if lead cs = ['.'] then some ⟨""⟩ else none

/-- The last component, when it is a name. -/
def fileName? (p : Path) : Option String :=
  match p.components.getLast? with
  | some (.name s) => some s
  | _ => none

/-- A file name without its last dot and what follows; a dot at the start stays. -/
def stem (name : List Char) : List Char :=
  let front := (name.reverse.dropWhile (· != '.')).tail.reverse
  if front.isEmpty then name else front

/-- Replaces the extension of the file name, or adds one. -/
def withExtension (p : Path) (extension : String) : Path :=
  match p.fileName? with
  | none => p
  | some name =>
      let cs := p.text.toList
      let pieces := bodyPieces cs
      let renamed := pieces.dropLast ++
        [stem name.toList ++ if extension.isEmpty then [] else '.' :: extension.toList]
      ⟨String.ofList (lead cs ++ joinWith '/' renamed)⟩

/-- Adds a component to a stack, the last one first. A `..` takes away what it can: it
stays above the root and on an empty stack. -/
def pushComponent (stack : List Component) : Component → List Component
  | .current => stack
  | .parent =>
      match stack with
      | [] => [.parent]
      | [.root] => [.parent, .root]
      | _ :: rest => rest
  | c => c :: stack

/-- The path without dots and without a `..` behind a name. -/
def normalize (p : Path) : Path :=
  ofComponents (p.components.foldl pushComponent []).reverse

/-- The components that lead from a base to a target, given what is left of the two
and whether they have parted. -/
def stepsFrom (parted : Bool) : List Component → List Component → Option (List Component)
  | [], [] => some []
  | target, [] => some target
  | [], _ :: base => (stepsFrom true [] base).map (.parent :: ·)
  | t :: target, b :: base =>
      if !parted && t = b then stepsFrom false target base
      else if b = .current then (stepsFrom true target base).map (t :: ·)
      else if b = .parent then none
      else some (.parent :: (base.map fun _ => Component.parent) ++ t :: target)

/-- The way from a base to a target, by components. -/
def relativeTo? (target base : Path) : Option Path :=
  if target.isAbsolute != base.isAbsolute then if target.isAbsolute then some target else none
  else (stepsFrom false target.components base.components).map ofComponents

/-- The path as it identifies a module, with slashes only. -/
def moduleId (p : Path) : String :=
  String.ofList (p.text.toList.map fun c => if c = '\\' then '/' else c)

end Path
end StyleBundler
