import StyleBundler.Pack.Mode
import StyleBundler.Pack.Plan

/-!
The encoding by a generated script module. The module constructs each packed stylesheet
once and exports it under every local name that the unit reads it by; imports without a
local name are dropped.
-/

namespace StyleBundler.Exported

/-- An export of the generated module, under a local name of the unit. -/
inductive SheetExport where
  /-- A new sheet with this content. -/
  | constructed (name content : String)
  /-- Another name for the sheet constructed as `first`. -/
  | renamed (first name : String)
deriving DecidableEq, Repr, Inhabited

namespace SheetExport

def name : SheetExport → String
  | .constructed name _ => name
  | .renamed _ name => name

def text : SheetExport → String
  | .constructed name content =>
      "const " ++ name ++ " = new CSSStyleSheet();" ++ name ++ ".replaceSync(\x60" ++
        TemplateLiteral.escapeText content ++ "\x60);export \x7b " ++ name ++ " \x7d;\n\n"
  | .renamed first name => "export \x7b " ++ first ++ " as " ++ name ++ " \x7d;\n"

end SheetExport

/-- The local name that an entry reads its sheet by, given its place in the plan. A
declaration without names reads nothing. -/
def localName? (place : Nat) (e : PlannedImport) : Option String :=
  match e.binding with
  | .static (some name) _ => some name
  | .static none (some name) => some ("__namespace_import_" ++ name ++ "__")
  | .static none none => none
  | .dynamic (some name) _ => some ("__dynamic_import_" ++ name ++ "__")
  | .dynamic none _ => some ("__dynamic_import_" ++ toString place ++ "__")

/-- The entries that read a sheet, each with its local name. -/
def readers (place : Nat) : Plan → List (String × PlannedImport)
  | [] => []
  | e :: es =>
      ((localName? place e).map fun name => (name, e)).toList ++ readers (place + 1) es

/-- The exports for these readers, one per local name. `first` holds the references that
are constructed, with the names of their sheets, and `taken` all names so far. -/
def exportsFrom (store : AssetStore) (first : List (String × String)) (taken : List String) :
    List (String × PlannedImport) → List SheetExport
  | [] => []
  | (name, e) :: rest =>
      if taken.contains name then exportsFrom store first taken rest
      else
        match first.lookup e.reference with
        | some sheet => .renamed sheet name :: exportsFrom store first (name :: taken) rest
        | none =>
            let content := ((store.referenced? e.reference).map (·.content)).getD ""
            .constructed name content ::
              exportsFrom store ((e.reference, name) :: first) (name :: taken) rest

def sheetExports (store : AssetStore) (p : Plan) : List SheetExport :=
  exportsFrom store [] [] (readers 0 p)

def source (exported : List SheetExport) : String :=
  String.join (exported.map SheetExport.text)

/-- The generated module, when something reads from it. -/
def artifact? (store : AssetStore) (p : Plan) : Option Artifact :=
  let exported := sheetExports store p
  if exported.isEmpty then none
  else some (.ofSource (source exported) PackMode.exportedModules.extension)

/-- The statement that builds a namespace object. -/
def namespaceObject (name : String) (e : PlannedImport) : String :=
  match e.binding with
  | .static _ (some whole) =>
      "const " ++ whole ++ " = \x7b default: " ++ name ++ " \x7d;\n"
  | _ => ""

def namespaceObjects (p : Plan) : String :=
  String.join ((readers 0 p).map fun (name, e) => namespaceObject name e)

/-- The statement that loads the generated module. -/
def loadStatement (names : List String) (artifact : String) : String :=
  "import \x7b " ++ ", ".intercalate names ++ " \x7d from './" ++ artifact ++ "';\n"

/-- What takes the place of the entry at a place of the plan. -/
def replacement (place : Nat) (e : PlannedImport) : String :=
  match e.binding, localName? place e with
  | .dynamic _ awaited, some name => settledPromise name awaited
  | _, _ => ""

/-- Replaces the entries of a plan from a place on. -/
def replaceFrom (s : Edits) (place : Nat) : Plan → Edits
  | [] => s
  | e :: es => replaceFrom (s.overwrite e.span (replacement place e)) (place + 1) es

def edits (store : AssetStore) (p : Plan) : Edits :=
  let replaced := replaceFrom .empty 0 p
  match artifact? store p with
  | none => replaced
  | some a =>
      let objects := namespaceObjects p
      let replaced := if objects.isEmpty then replaced else replaced.prepend objects
      replaced.prepend (loadStatement ((sheetExports store p).map SheetExport.name) a.name)

end StyleBundler.Exported
