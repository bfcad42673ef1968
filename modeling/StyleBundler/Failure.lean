import StyleBundler.Edit
import StyleBundler.FileTree

/-!
Everything that can stop a command, by its cause. `Failure.message` tells the whole
chain of causes, the outermost first.
-/

namespace StyleBundler

/-- Why a stylesheet specifier leads nowhere. -/
inductive ResolutionReason where
  | unreadablePackage
  | malformedPackage
  | packageNotFound
  | fileNotFound
deriving DecidableEq, Repr, Inhabited

def ResolutionReason.message : ResolutionReason → String
  | .unreadablePackage => "Failed to read package.json"
  | .malformedPackage => "Failed to parse package.json"
  | .packageNotFound => "package not found in node_modules"
  | .fileNotFound => "file not found"

inductive StyleError where
  | resolution (importer specifier : String) (reason : ResolutionReason)
  | read (path : Path) (cause : FileError)
  | transform (path : Path) (cause : String)
  | edit (cause : EditError)
deriving DecidableEq, Repr

def StyleError.message : StyleError → String
  | .resolution importer specifier reason =>
      "failed to resolve '" ++ specifier ++ "' imported from " ++ importer ++ ": " ++
        reason.message
  | .read path cause => "failed to read stylesheet " ++ path.text ++ ": " ++ cause.message
  | .transform path cause => "stylesheet transform failed for " ++ path.text ++ ": " ++ cause
  | .edit cause => cause.message

inductive Failure where
  | style (cause : StyleError)
  /-- A hook gave up with a text of its own. -/
  | hook (text : String)
  | transforming (path : Path) (cause : Failure)
  | modulePath (path : Path) (cause : FileError)
  | moduleText (path : Path) (cause : FileError)
  | entrypoint (cause : FileError)
  | outputDirectory (cause : FileError)
  | outputFile (path : Path) (cause : FileError)
  | manifest (cause : FileError)
  | configFile (path : Path) (cause : FileError)
  | configText
  | noEntrypoints
  | missingEntrypoint (name : String) (path : Path)
deriving DecidableEq, Repr

def Failure.message : Failure → String
  | .style cause => cause.message
  | .hook text => text
  | .transforming path cause => "Failed to transform " ++ path.text ++ ": " ++ cause.message
  | .modulePath path cause =>
      "Failed to resolve module path: " ++ path.text ++ ": " ++ cause.message
  | .moduleText path cause => "Failed to read module: " ++ path.text ++ ": " ++ cause.message
  | .entrypoint cause => cause.message
  | .outputDirectory cause => "Failed to create output directory: " ++ cause.message
  | .outputFile path cause => "Failed to write " ++ path.text ++ ": " ++ cause.message
  | .manifest cause => "Failed to write manifest.json: " ++ cause.message
  | .configFile path cause =>
      "Failed to read config file: " ++ path.text ++ ": " ++ cause.message
  | .configText => "Failed to parse sheetpack.toml"
  | .noEntrypoints => "At least one entrypoint must be specified in sheetpack.toml"
  | .missingEntrypoint name path =>
      "Entrypoint '" ++ name ++ "' points to non-existent file: " ++ path.text

/-- The stylesheet error at the end of the chain of causes. -/
def Failure.styleError? : Failure → Option StyleError
  | .style cause => some cause
  | .transforming _ cause => cause.styleError?
  | _ => none

end StyleBundler
