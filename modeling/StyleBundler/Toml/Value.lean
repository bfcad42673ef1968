/-!
Values of a TOML document. Numbers are only told apart from other values; a date or
time keeps its normal text.
-/

namespace StyleBundler.Toml

inductive Value where
  | string (s : String)
  | integer
  | float
  | boolean (b : Bool)
  | datetime (text : String)
  | array (items : List Value)
  | table (entries : List (String × Value))
deriving Repr, Inhabited

/-- Reads a value off the start of a text, giving what follows it. -/
abbrev Reader (α : Type) := List Char → Option (α × List Char)

/-- Blanks within a line. -/
def isSpace (c : Char) : Bool := c == ' ' || c == '\t'

def skipSpace (cs : List Char) : List Char := cs.dropWhile isSpace

/-- What a line break at the start of a text leaves. -/
def afterNewline? : List Char → Option (List Char)
  | '\n' :: cs | '\r' :: '\n' :: cs => some cs
  | _ => none

/-- Characters that may stand in comments and literal strings: no control character
but the tab. -/
def isPlain (c : Char) : Bool := c == '\t' || (' ' ≤ c && c != '\x7f')

end StyleBundler.Toml
