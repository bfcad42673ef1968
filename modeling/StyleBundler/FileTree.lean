import StyleBundler.Path

/-!
A tree of files and directories. A path is followed from the root or the working
directory, one piece of its text after the other: every step, a dot or a closing slash
included, needs a directory to stand in, and `..` leaves the one that was reached.
Operations that change the tree return the tree as they leave it, also when they fail.
-/

namespace StyleBundler

/-- Why a file operation was refused. -/
inductive FileError where
  | notFound
  | alreadyExists
  | notDirectory
  | isDirectory
  | nameTooLong
  | nulCharacter
  | invalidText
  | noParent
deriving DecidableEq, Repr, Inhabited

def FileError.message : FileError → String
  | .notFound => "No such file or directory (os error 2)"
  | .alreadyExists => "File exists (os error 17)"
  | .notDirectory => "Not a directory (os error 20)"
  | .isDirectory => "Is a directory (os error 21)"
  | .nameTooLong => "File name too long (os error 36)"
  | .nulCharacter => "file name contained an unexpected NUL byte"
  | .invalidText => "stream did not contain valid UTF-8"
  | .noParent => "failed to create whole tree"

inductive FileEntry where
  | file (content : ByteArray)
  | directory

/-- The names that lead from the root to a file or directory. -/
abbrev Location := List String

structure FileTree where
  entries : List (Location × FileEntry)
  /-- Where relative paths start. -/
  workingDirectory : Location

namespace FileTree

def find? (t : FileTree) (l : Location) : Option FileEntry :=
  if l.isEmpty then some .directory else t.entries.lookup l

def isDirectoryAt (t : FileTree) (l : Location) : Bool :=
  match t.find? l with
  | some .directory => true
  | _ => false

def set (t : FileTree) (l : Location) (e : FileEntry) : FileTree :=
  { t with entries := (l, e) :: t.entries.filter (·.1 != l) }

def erase (t : FileTree) (l : Location) : FileTree :=
  { t with entries := t.entries.filter (·.1 != l) }

def maxNameLength : Nat := 255

/-- Follows the pieces of a path from a place. -/
def follow (t : FileTree) (l : Location) : List (List Char) → Except FileError Location
  | [] => .ok l
  | piece :: pieces =>
      if !t.isDirectoryAt l then .error .notDirectory
      else if Path.isIdle piece then follow t l pieces
      else if piece = ['.', '.'] then follow t l.dropLast pieces
      else
        let name := String.ofList piece
        if maxNameLength < name.utf8ByteSize then .error .nameTooLong
        else
          match t.find? (l ++ [name]) with
          | none => .error .notFound
          | some _ => follow t (l ++ [name]) pieces

/-- Where following a path starts. -/
def origin (t : FileTree) (p : Path) : Location :=
  if p.isAbsolute then [] else t.workingDirectory

/-- The longest path that is followed at once, in bytes. -/
def maxPathLength : Nat := 4095

/-- Where a path leads. It is taken piece by piece, so that any length will do. -/
def trace (t : FileTree) (p : Path) : Except FileError Location :=
  if p.text.toList.contains '\x00' then .error .nulCharacter
  else if p.text.isEmpty then .error .notFound
  else t.follow (t.origin p) (Text.splitOn '/' p.text.toList)

/-- Refuses a path that no file operation takes. -/
def checkPath (p : Path) : Except FileError Unit :=
  if p.text.toList.contains '\x00' then .error .nulCharacter
  else if p.text.isEmpty then .error .notFound
  else if maxPathLength < p.text.utf8ByteSize then .error .nameTooLong
  else .ok ()

/-- The place of an existing file or directory. -/
def locate (t : FileTree) (p : Path) : Except FileError Location := do
  checkPath p
  t.trace p

/-- The place that a path gives to something new: the place of its directory, and its
name, which is missing when the path ends in dots. -/
def locateNew (t : FileTree) (p : Path) : Except FileError (Location × Option String) := do
  checkPath p
  match (Text.splitOn '/' p.text.toList).reverse.dropWhile List.isEmpty with
  | [] => .ok ([], none)
  | last :: front =>
      let directory ← t.follow (t.origin p) front.reverse
      if !t.isDirectoryAt directory then .error .notDirectory
      else if last = ['.'] ∨ last = ['.', '.'] then .ok (directory, none)
      else if maxNameLength < (String.ofList last).utf8ByteSize then .error .nameTooLong
      else .ok (directory, some (String.ofList last))

def isFile (t : FileTree) (p : Path) : Bool :=
  match t.locate p with
  | .ok l => (t.find? l).isSome && !t.isDirectoryAt l
  | .error _ => false

def isDirectory (t : FileTree) (p : Path) : Bool :=
  match t.locate p with
  | .ok l => t.isDirectoryAt l
  | .error _ => false

/-- The absolute path of a place. -/
def pathOf (l : Location) : Path := ⟨"/" ++ "/".intercalate l⟩

/-- The absolute path without dots of an existing file or directory. -/
def canonical (t : FileTree) (p : Path) : Except FileError Path := (t.trace p).map pathOf

def readText (t : FileTree) (p : Path) : Except FileError String := do
  match t.find? (← t.locate p) with
  | some (.file content) =>
      match String.fromUTF8? content with
      | some s => .ok s
      | none => .error .invalidText
  | some .directory => .error .isDirectory
  | none => .error .notFound

/-- Writes a file, in place of an older one. -/
def write (t : FileTree) (p : Path) (content : ByteArray) : Except FileError FileTree := do
  let (directory, name?) ← t.locateNew p
  match name? with
  | none => .error .isDirectory
  | some name =>
      if p.text.toList.getLast? = some '/' ∨ t.isDirectoryAt (directory ++ [name]) then
        .error .isDirectory
      else .ok (t.set (directory ++ [name]) (.file content))

def writeText (t : FileTree) (p : Path) (content : String) : Except FileError FileTree :=
  t.write p content.toUTF8

/-- Makes one directory in an existing one. -/
def makeDirectory (t : FileTree) (p : Path) : Except FileError FileTree := do
  let (directory, name?) ← t.locateNew p
  match name? with
  | none => .error .alreadyExists
  | some name =>
      if (t.find? (directory ++ [name])).isSome then .error .alreadyExists
      else .ok (t.set (directory ++ [name]) .directory)

/-- Makes a directory and those that are missing above it; `depth` bounds their
number. What was made stays when a later step fails. -/
def makeDirectories : Nat → FileTree → Path → FileTree × Except FileError Unit
  | 0, t, _ => (t, .error .noParent)
  | depth + 1, t, p =>
      let settle (t : FileTree) (e : FileError) : FileTree × Except FileError Unit :=
        (t, if t.isDirectory p then .ok () else .error e)
      if p.components.isEmpty then (t, .ok ())
      else
        match t.makeDirectory p with
        | .ok t => (t, .ok ())
        | .error .notFound =>
            match p.parent? with
            | none => (t, .error .noParent)
            | some parent =>
                match makeDirectories depth t parent with
                | (t, .error e) => (t, .error e)
                | (t, .ok ()) =>
                    match t.makeDirectory p with
                    | .ok t => (t, .ok ())
                    | .error e => settle t e
        | .error e => settle t e

def makeAll (t : FileTree) (p : Path) : FileTree × Except FileError Unit :=
  makeDirectories (p.components.length + 1) t p

/-- Puts a file or directory at a place, with the directories above it. -/
def place (t : FileTree) (l : Location) (e : FileEntry) : FileTree :=
  let above := (List.range l.length).map fun n => l.take n
  let t := above.foldl
    (fun t d => if (t.find? d).isSome then t else t.set d .directory) t
  t.set l e

/-- A tree with one empty directory, which is the working directory. -/
def rooted (l : Location) : FileTree := (⟨[], l⟩ : FileTree).place l .directory

/-- The files below a directory that `old` does not hold with the same content, by the
rest of their places. -/
def changes (old new : FileTree) (below : Location) : List (Location × ByteArray) :=
  new.entries.filterMap fun (l, e) =>
    match e with
    | .directory => none
    | .file content =>
        if l.take below.length != below then none
        else
          match old.find? l with
          | some (.file before) =>
              if before == content then none else some (l.drop below.length, content)
          | _ => some (l.drop below.length, content)

end FileTree
end StyleBundler
