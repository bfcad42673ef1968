import StyleBundler.Failure
import StyleBundler.Graph
import StyleBundler.Json.Quoted
import StyleBundler.Output

/-!
Writing the files of a build. They are written in the order of their names; the tree is
returned as writing leaves it, also when it stops at a file.
-/

namespace StyleBundler.Build

/-- A file that has been written. -/
structure WrittenFile where
  name : String
  path : Path
  kind : OutputKind
  /-- The number of bytes. -/
  size : Nat
deriving DecidableEq, Repr, Inhabited

/-- Writes files into a directory, up to the first that cannot be written. -/
def writeFiles (directory : Path) (t : FileTree) :
    OutputBundle → FileTree × Except Failure (List WrittenFile)
  | [] => (t, .ok [])
  | (name, file) :: rest =>
      let path := directory.join ⟨name⟩
      match t.writeText path file.source with
      | .error e => (t, .error (.outputFile path e))
      | .ok t =>
          let (t, written) := writeFiles directory t rest
          (t, written.map (⟨name, path, file.kind, file.source.utf8ByteSize⟩ :: ·))

/-- Writes files into a directory that is made if it is not there. -/
def writeBundle (directory : Path) (t : FileTree) (b : OutputBundle) :
    FileTree × Except Failure (List WrittenFile) :=
  match t.makeAll directory with
  | (t, .error e) => (t, .error (.outputDirectory e))
  | (t, .ok ()) => writeFiles directory t b

/-- The published file of each entrypoint under the entrypoint's name, and of each asset
under its own. -/
def manifest (chunks : List Chunk) (written : List WrittenFile) : Listing String :=
  let units := chunks.foldl (fun l c => Listing.insert c.name c.fileName l) []
  (written.filter (·.kind == .asset)).foldl (fun l f => Listing.insert f.name f.name l) units

def manifestName : String := "manifest.json"

def writeManifest (directory : Path) (t : FileTree) (l : Listing String) :
    FileTree × Except Failure Unit :=
  match t.writeText (directory.join ⟨manifestName⟩) (Json.prettyObject l) with
  | .error e => (t, .error (.manifest e))
  | .ok t => (t, .ok ())

end StyleBundler.Build
