import StyleBundler.Span

/-!
Tokens of a script module. The grammar is told apart only as far as the search
for import sites needs: literals are single tokens, every other sign is one token
of its own.
-/

namespace StyleBundler.Script

inductive TokenKind where
  | ident (name : String)
  /-- A quoted string with its escapes undone. -/
  | str (value : String)
  /-- A template literal with its static chunks as written; between two of them
  stands an interpolation. -/
  | template (chunks : List String)
  | number
  | regex
  | punct (sign : Char)
deriving DecidableEq, Repr, Inhabited

structure Token where
  kind : TokenKind
  span : Span
deriving DecidableEq, Repr, Inhabited

namespace Token

def isIdent (t : Token) (name : String) : Bool := t.kind == .ident name

def isPunct (t : Token) (sign : Char) : Bool := t.kind == .punct sign

end Token

/-- The keywords after which a slash opens a regular expression. -/
def operandKeywords : List String :=
  ["return", "typeof", "case", "do", "else", "in", "of", "new", "delete", "void",
    "throw", "instanceof", "yield", "await"]

/-- Whether a slash after the given token opens a regular expression: at the start
of the text, after a sign that cannot end an operand, and after a keyword that
wants one. -/
def TokenKind.opensRegex : Option TokenKind → Bool
  | none => true
  | some (.punct sign) => sign != ')' && sign != ']'
  | some (.ident name) => operandKeywords.contains name
  | some _ => false

end StyleBundler.Script
