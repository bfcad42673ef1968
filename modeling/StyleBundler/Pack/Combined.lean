import StyleBundler.Pack.Mode
import StyleBundler.Pack.Plan
import StyleBundler.Sheet.Extraction
import StyleBundler.Sheet.Snippet

/-!
The combined encoding: one stylesheet with a named block per packed stylesheet. The unit
imports it and extracts the sheets by their names.
-/

namespace StyleBundler.Combined

def blockOf (store : AssetStore) (e : PlannedImport) : String :=
  match store.referenced? e.reference with
  | some a => Sheet.namedBlock e.sheetName a.content
  | none => ""

def source (store : AssetStore) (p : Plan) : String :=
  String.join (p.unique.map (blockOf store))

def artifact (store : AssetStore) (p : Plan) : Artifact :=
  .ofSource (source store p) PackMode.combined.extension

/-- The call that extracts the sheet of an entry. -/
def extraction (e : PlannedImport) : String :=
  Sheet.getterName ++ "(" ++ Sheet.bundleVariable ++ ", '" ++ e.sheetName ++ "')"

/-- The statements that bind the names of a declaration. -/
def declarations (e : PlannedImport) : String :=
  match e.binding with
  | .static localName namespaceName =>
      let named := localName.map fun name => "const " ++ name ++ " = " ++ extraction e ++ ";\n"
      let whole := namespaceName.map fun name =>
        "const " ++ name ++ " = \x7b default: " ++ extraction e ++ " \x7d;\n"
      named.getD "" ++ whole.getD ""
  | .dynamic .. => ""

/-- The statement that loads the combined stylesheet. -/
def loadStatement (name : String) (keyword : Script.AttributeKeyword) : String :=
  "import " ++ Sheet.bundleVariable ++ " from './" ++ name ++ "' " ++ keyword.text ++
    " \x7b type: 'css' \x7d;\n"

/-- What takes the place of an entry. -/
def replacement (e : PlannedImport) : String :=
  match e.binding with
  | .static .. => ""
  | .dynamic _ awaited => settledPromise (extraction e) awaited

def edits (store : AssetStore) (keyword : Script.AttributeKeyword) (p : Plan) : Edits :=
  let replaced := p.foldl (fun s e => s.overwrite e.span (replacement e)) Edits.empty
  ((replaced.prepend (String.join (p.map declarations))).prepend Sheet.snippet).prepend
    (loadStatement (artifact store p).name keyword)

end StyleBundler.Combined
