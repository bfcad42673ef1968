import StyleBundler.Script.ImportNode
import StyleBundler.Text.Blank
import StyleBundler.Text.Word

/-!
The script dependencies of a module: the specifiers of its import declarations and of
its re-exports, each once, declarations first. Re-exports are searched for in the
text as it stands, so one in a comment counts as well.
-/

namespace StyleBundler.Dependency

open Text

/-- A quoted specifier, with the text behind it. Either quote closes it. -/
def specifier? : List Char → Option (List Char × List Char)
  | quote :: cs =>
      let isQuote (c : Char) : Bool := c == '"' || c == '\''
      if isQuote quote then
        match cs.takeWhile (!isQuote ·), cs.dropWhile (!isQuote ·) with
        | c :: specifier, _ :: rest => some (c :: specifier, rest)
        | _, _ => none
      else none
  | [] => none

/-- Blanks, `from`, blanks and a quoted specifier. -/
def fromClause? (cs : List Char) : Option (List Char × List Char) := do
  let cs ← skipBlanks? cs
  let cs ← after? "from".toList cs
  let cs ← skipBlanks? cs
  specifier? cs

/-- Blanks, `as`, blanks and a word. -/
def aliasClause? (cs : List Char) : Option (List Char) := do
  let cs ← skipBlanks? cs
  let cs ← after? "as".toList cs
  match ← skipBlanks? cs with
  | c :: cs => if isWord c then some (cs.dropWhile isWord) else none
  | [] => none

/-- The list in braces of a re-export, or its star with or without a name. -/
def exportedNames? : List Char → Option (List Char)
  | '{' :: cs =>
      match cs.dropWhile (· != '}') with
      | _ :: rest => some rest
      | [] => none
  | '*' :: cs => some ((aliasClause? cs).getD cs)
  | _ => none

/-- A re-export at the start of the text. -/
def reexport? (cs : List Char) : Option (List Char × List Char) := do
  let cs ← after? "export".toList cs
  let cs ← skipBlanks? cs
  let cs ← exportedNames? cs
  fromClause? cs

/-- The specifiers of the re-exports in a text, none starting inside another. `skip`
counts the characters that the last one still covers. -/
def reexportsFrom (skip : Nat) : List Char → List (List Char)
  | [] => []
  | c :: cs =>
      match skip with
      | skip + 1 => reexportsFrom skip cs
      | 0 =>
          match reexport? (c :: cs) with
          | some (specifier, rest) => specifier :: reexportsFrom (cs.length - rest.length) cs
          | none => reexportsFrom 0 cs

def reexports (source : String) : List String :=
  (reexportsFrom 0 source.toList).map String.ofList

def declarationSource? : Script.ImportNode → Option String
  | .declaration d => some d.source
  | .call _ => none

/-- Adds what is not there yet. -/
def insertNew (found : List String) (s : String) : List String :=
  if found.contains s then found else found ++ [s]

def dependencies (source : String) : List String :=
  ((Script.importNodes source).filterMap declarationSource? ++ reexports source).foldl
    insertNew []

end StyleBundler.Dependency
