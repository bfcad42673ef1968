import StyleBundler.Failure
import StyleBundler.Json.Value

/-!
From specifiers to files. Script specifiers are taken relative to the importing module
and may leave out an extension or name a directory; package names are left to the
browser. Stylesheet specifiers have to lead to a file, package names through the
`node_modules` directories above the importing module.
-/

namespace StyleBundler.Resolve

open Text

/-- A specifier that names a package: it starts, quotes aside, with an ASCII letter or
an at sign. -/
def isBare (specifier : String) : Bool :=
  match trimBoth (fun c => c == '\'' || c == '"') specifier.toList with
  | c :: _ => c.isAlpha || c == '@'
  | [] => false

def scriptExtensions : List String := ["js", "mjs", "jsx", "ts", "tsx"]

/-- The directory of a module. -/
def directoryOf (importer : Path) : Path := importer.parent?.getD ⟨"."⟩

/-- The files that a specifier may mean, the first choice first. -/
def candidates (t : FileTree) (extensions : List String) (target : Path) : List Path :=
  target :: extensions.map target.withExtension ++
    if t.isDirectory target then extensions.map fun e => target.join ⟨"index." ++ e⟩ else []

/-- The first file that a specifier may mean. -/
def relative? (t : FileTree) (extensions : List String) (base : Path) (specifier : String) :
    Option Path :=
  (candidates t extensions (base.join ⟨specifier⟩).normalize).find? t.isFile

/-- The file of a script specifier; nothing for a package name. -/
def script? (t : FileTree) (specifier : String) (importer : Path) : Option Path :=
  match specifier.toList with
  | '.' :: _ | '/' :: _ => relative? t scriptExtensions (directoryOf importer) specifier
  | _ => none

/-- A package name, with its scope, and the path behind it. -/
def splitPackage? (specifier : String) : Option (String × Option String) :=
  let rest? (pieces : List (List Char)) : Option String :=
    if pieces.isEmpty then none else some (String.ofList (joinWith '/' pieces))
  match specifier.toList.head?, splitOn '/' specifier.toList with
  | some '@', scope :: name :: pieces =>
      some (String.ofList (scope ++ '/' :: name), rest? pieces)
  | some '@', _ => none
  | _, name :: pieces => some (String.ofList name, rest? pieces)
  | _, [] => none

/-- The stylesheet that a package offers: what its `package.json` names, or its
`index.css`. -/
def packageStyle? (t : FileTree) (package : Path) : Except ResolutionReason (Option Path) :=
  let manifest := package.join ⟨"package.json"⟩
  if t.isFile manifest then
    match t.readText manifest with
    | .error _ => .error .unreadablePackage
    | .ok text =>
        match Json.parse? text with
        | none => .error .malformedPackage
        | some value =>
            let named := ["style", "main"].filterMap fun field =>
              (value.member? field).bind (·.asString?)
            .ok ((named ++ ["index.css"]).findSome? (relative? t [] package))
  else .ok (relative? t [] package "index.css")

/-- The file of a package specifier in one `node_modules` directory. -/
def inPackages? (t : FileTree) (packages : Path) (specifier : String) :
    Except ResolutionReason (Option Path) :=
  match splitPackage? specifier with
  | none => .ok none
  | some (name, rest) =>
      let package := packages.join ⟨name⟩
      if t.isDirectory package then
        match rest with
        | some inner => .ok (relative? t [] package inner)
        | none => packageStyle? t package
      else .ok none

/-- A directory and the directories above it, the nearest first; `depth` bounds their
number. -/
def upward : Nat → Path → List Path
  | 0, _ => []
  | depth + 1, p =>
      p :: match p.parent? with
        | some parent => upward depth parent
        | none => []

/-- The file of a package specifier, searched upward from a directory. -/
def package? (t : FileTree) (specifier : String) :
    List Path → Except ResolutionReason (Option Path)
  | [] => .ok none
  | directory :: above => do
      let packages := directory.join ⟨"node_modules"⟩
      let found ←
        if t.isDirectory packages then inPackages? t packages specifier else .ok none
      match found with
      | some path => .ok (some path)
      | none => package? t specifier above

/-- The file of a stylesheet specifier. -/
def stylesheet (t : FileTree) (specifier : String) (importer : Path) : Except StyleError Path :=
  let refuse (reason : ResolutionReason) : Except StyleError Path :=
    .error (.resolution importer.moduleId specifier reason)
  let base := directoryOf importer
  if isBare specifier then
    match package? t specifier (upward (base.components.length + 1) base) with
    | .error reason => refuse reason
    | .ok none => refuse .packageNotFound
    | .ok (some path) => if t.isFile path then .ok path else refuse .fileNotFound
  else
    let path := (base.join ⟨specifier⟩).normalize
    if t.isFile path then .ok path else refuse .fileNotFound

end StyleBundler.Resolve
