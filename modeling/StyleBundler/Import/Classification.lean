import StyleBundler.Script.ImportNode
import StyleBundler.Url

/-!
What becomes of an import node: it does not load a stylesheet, or its specifier is
known and gives way to another, or it is under a scheme that the browser loads itself, or
its specifier is computed and only reported.
-/

namespace StyleBundler.Import

open Script

/-- How an import loads its stylesheet and what it binds. -/
inductive ImportKind where
  | static (binding : Option String)
  | dynamic (binding : Option String) (awaited : Bool)
deriving DecidableEq, Repr, Inhabited

inductive SpecifierForm where
  | literal
  | template
  | interpolatedTemplate
  | concatenation
  | identifier
  | other
deriving DecidableEq, Repr, Inhabited

namespace SpecifierForm

def of : Expr → SpecifierForm
  | .str _ _ => .literal
  | .template _ chunks => if chunks.length > 1 then .interpolatedTemplate else .template
  | .sum _ => .concatenation
  | .ident _ _ => .identifier
  | .object _ _ | .other _ => .other

/-- The specifier's text is known before the module runs. -/
def isAnalyzable : SpecifierForm → Bool
  | .literal | .template => true
  | _ => false

def name : SpecifierForm → String
  | .literal => "literal"
  | .template => "template"
  | .interpolatedTemplate => "template-interpolated"
  | .concatenation => "concatenation"
  | .identifier => "identifier"
  | .other => "other"

end SpecifierForm

/-- A stylesheet import with a known specifier. -/
structure Site where
  kind : ImportKind
  form : SpecifierForm
  specifier : String
  /-- The specifier expression, quotes included. -/
  span : Span
  moduleId : String
deriving DecidableEq, Repr, Inhabited

/-- A stylesheet import whose specifier is computed. -/
structure Diagnostic where
  moduleId : String
  form : SpecifierForm
  /-- The import as written. -/
  slice : String
deriving DecidableEq, Repr, Inhabited

def Diagnostic.message (d : Diagnostic) : String :=
  "Dynamic imports with variables are not supported, since they rely on runtime code " ++
    "they are hard to statically analyze.\n\nFound in module \"" ++ d.moduleId ++
    "\":\n\n" ++ d.slice

inductive Classification where
  | notCss
  | css (site : Site)
  | ignored (specifier : String)
  | unsupported (diagnostic : Diagnostic)
deriving DecidableEq, Repr, Inhabited

def defaultSchemes : List String := ["data", "http", "https"]

def isCssType (attributes : ObjectLiteral) : Bool :=
  (attributes.get? "type").bind Expr.asString? == some "css"

/-- A declaration with the attribute `type: 'css'`. -/
def isCssDeclaration (d : ImportDeclaration) : Bool :=
  d.attributes.any fun a => isCssType a.entries

/-- The keyword under which a call's options give the attribute `type: 'css'`. -/
def cssKeyword? (c : ImportCall) : Option AttributeKeyword := do
  let options ← c.options
  options.properties.findSome? fun (key, value) => do
    let keyword ← AttributeKeyword.ofText? key
    let attributes ← value.asObject?
    if isCssType attributes then some keyword else none

/-- The text of a specifier expression that has no computed part. -/
def specifierText? : Expr → Option String
  | .str _ value => some value
  | .template _ chunks => if chunks.length > 1 then none else some (String.join chunks)
  | _ => none

def classifySpecifier (schemes : List String) (source moduleId : String) (kind : ImportKind)
    (argument : Expr) (node : Span) : Classification :=
  match specifierText? argument with
  | none =>
      .unsupported ⟨moduleId, .of argument,
        String.ofList (Text.slice source.toList node)⟩
  | some specifier =>
      if Url.isUnder schemes specifier then .ignored specifier
      else .css ⟨kind, .of argument, specifier, argument.span, moduleId⟩

def classify (schemes : List String) (source moduleId : String) : ImportNode → Classification
  | .declaration d =>
      if isCssDeclaration d then
        classifySpecifier schemes source moduleId (.static d.defaultBinding)
          (.str d.sourceSpan d.source) d.span
      else .notCss
  | .call c =>
      if (cssKeyword? c).isSome then
        classifySpecifier schemes source moduleId
          (.dynamic (c.binding.map (·.name)) (c.binding.any (·.awaited))) c.argument c.span
      else .notCss

/-- The stylesheet imports of a module, classified, in source order. -/
def classifyModule (schemes : List String) (source moduleId : String) : List Classification :=
  ((importNodes source).map (classify schemes source moduleId)).filter (· != .notCss)

end StyleBundler.Import
