import StyleBundler.CommandLine

/-!
The program. It reads the files below the working directory, runs a command on them, and
writes back what the command has changed.
-/

namespace StyleBundler.Program

def usage : String :=
  "Usage: sheetpack [-v] [-c CONFIG] COMMAND\n\n" ++
    "  build [-o OUTDIR] [-b MODE]  build the project\n" ++
    "  check [-p] MODULE            report how the CSS imports of a module would be handled\n"

/-- The names that lead from the root to an absolute path. -/
def location (path : String) : Location :=
  ((Text.splitOn '/' path.toList).filter (!·.isEmpty)).map String.ofList

/-- The files below the working directory. -/
def loadFiles : IO FileTree := do
  let here ← IO.currentDir
  let mut files := FileTree.rooted (location here.toString)
  for path in ← here.walkDir do
    let entry ←
      if ← path.isDir then pure FileEntry.directory
      else FileEntry.file <$> IO.FS.readBinFile path
    files := files.place (location path.toString) entry
  return files

/-- Writes the files that differ between two trees. -/
def saveChanges (before after : FileTree) : IO Unit := do
  for (place, content) in before.changes after [] do
    IO.FS.createDirAll (FileTree.pathOf place.dropLast).text
    IO.FS.writeBinFile (FileTree.pathOf place).text content

def elapsedText (nanoseconds : Nat) : String :=
  Quantity.durationText (nanoseconds / 1000000000) (nanoseconds % 1000000000)

def execute (i : CommandLine.Invocation) : IO UInt32 := do
  let start ← IO.monoNanosNow
  let before ← loadFiles
  let outcome := CommandLine.run before i
  saveChanges before outcome.files
  let stop ← IO.monoNanosNow
  IO.print outcome.output
  IO.eprint (outcome.notes (elapsedText (stop - start)))
  match outcome.result with
  | .ok () => return 0
  | .error e =>
      IO.eprintln ("Error: " ++ e.message)
      return 1

/-- Answers arguments that do not lead to a run. -/
def explain : CommandLine.UsageNotice → IO UInt32
  | .help => do
      IO.print usage
      return 0
  | .version => do
      IO.println ("sheetpack " ++ CommandLine.version)
      return 0
  | _ => do
      IO.eprint usage
      return 2

end StyleBundler.Program

def main (args : List String) : IO UInt32 :=
  match StyleBundler.CommandLine.parse args with
  | .ok i => StyleBundler.Program.execute i
  | .error notice => StyleBundler.Program.explain notice
