/-!
The two ways to pack the stylesheets of an output file, and the template literals of
the second one.
-/

namespace StyleBundler

inductive PackMode where
  /-- One combined stylesheet. -/
  | combined
  /-- One script module that exports a sheet per stylesheet. -/
  | exportedModules
deriving DecidableEq, Repr, Inhabited

namespace PackMode

def name : PackMode → String
  | .combined => "combined"
  | .exportedModules => "exported-modules"

def extension : PackMode → String
  | .combined => "css"
  | .exportedModules => "js"

/-- A mode by its name or by its extension. -/
def ofText? (s : String) : Option PackMode :=
  if s = "combined" || s = "css" then some .combined
  else if s = "exported-modules" || s = "js" then some .exportedModules
  else none

def unknownMessage (s : String) : String :=
  "unknown bundle mode '" ++ s ++ "', expected 'combined' or 'exported-modules'"

end PackMode

namespace TemplateLiteral

/-- Escapes what a template literal would read as more than text. -/
def escape : List Char → List Char
  | [] => []
  | '\\' :: cs => '\\' :: '\\' :: escape cs
  | '\x60' :: cs => '\\' :: '\x60' :: escape cs
  | '$' :: '{' :: cs => '\\' :: '$' :: '{' :: escape cs
  | c :: cs => c :: escape cs

def escapeText (s : String) : String := String.ofList (escape s.toList)

end TemplateLiteral
end StyleBundler
