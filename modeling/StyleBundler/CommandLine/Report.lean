import StyleBundler.Build
import StyleBundler.Quantity

/-!
The texts that the commands print.
-/

namespace StyleBundler.CommandLine

def version : String := "0.1.0"

def banner : String := "\nSheetpack v" ++ version ++ "\n\n"

def warning (d : Import.Diagnostic) : String := "warning: " ++ d.message ++ "\n\n"

def warnings (ds : List Import.Diagnostic) : String := String.join (ds.map warning)

def startNote (c : Config) : String := "→ Building " ++ c.project.name ++ "...\n"

def writtenLine (f : Build.WrittenFile) : String :=
  "  • " ++ f.path.text ++ " " ++ Quantity.sizeText f.size ++ "\n"

/-- The account of a build that took that long. -/
def buildNote (elapsed : String) (r : BuildReport) : String :=
  warnings r.diagnostics ++ "\n✓ Wrote " ++ toString r.outputs.length ++ " file(s) in " ++
    elapsed ++ "\n\n" ++ String.join (r.outputs.map writtenLine) ++ "\n"

/-- A line about one stylesheet import. -/
def importLine : Import.Classification → String
  | .css site =>
      let kind :=
        match site.kind with
        | .static _ => "static"
        | .dynamic _ awaited => if awaited then "dynamic (awaited)" else "dynamic"
      kind ++ " " ++ site.specifier ++ "\n"
  | .ignored specifier => "ignored " ++ specifier ++ "\n"
  | .unsupported d => "unsupported " ++ d.slice ++ "\n"
  | .notCss => ""

def checkNote (c : Hook.Context) : String :=
  warnings c.diagnostics ++ "✓ " ++ toString c.bundle.length ++ " stylesheet(s) resolved, " ++
    toString c.diagnostics.length ++ " warning(s)\n"

end StyleBundler.CommandLine
