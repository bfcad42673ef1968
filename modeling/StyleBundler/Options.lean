import StyleBundler.Content
import StyleBundler.Import.Classification
import StyleBundler.Pack.Mode
import StyleBundler.Text.Quoted

/-!
Options of the stylesheet hooks.
-/

namespace StyleBundler

structure StyleOptions where
  transform : Option ContentTransform
  /-- How the stylesheets of an output file are packed, when they are. -/
  bundle : Option PackMode
  ignoredSchemes : List String
  /-- The keyword of generated attribute clauses. -/
  keyword : Script.AttributeKeyword
deriving Inhabited

namespace StyleOptions

def standard : StyleOptions := ⟨none, none, Import.defaultSchemes, .withClause⟩

def modeLabel : PackMode → String
  | .combined => "Combined"
  | .exportedModules => "ExportedModules"

def keywordLabel : Script.AttributeKeyword → String
  | .withClause => "With"
  | .assertClause => "Assert"

/-- A one-line account of the options; a transform shows only that it is there. -/
def summary (o : StyleOptions) : String :=
  let transform := if o.transform.isSome then "Some(\"<transform>\")" else "None"
  let bundle :=
    match o.bundle with
    | some mode => "Some(" ++ modeLabel mode ++ ")"
    | none => "None"
  "CssOptions \x7b transform: " ++ transform ++ ", bundle: " ++ bundle ++
    ", ignored_schemes: [" ++ ", ".intercalate (o.ignoredSchemes.map Text.quoted) ++
    "], import_attribute: " ++ keywordLabel o.keyword ++ " \x7d"

end StyleOptions
end StyleBundler
