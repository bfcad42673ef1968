import StyleBundler.Script.Expr
import StyleBundler.Script.Lexer

/-!
Import nodes of a module: declarations and `import()` calls, in source order. The
module is read as a list of tokens; whatever does not take the shape of one of the
two is passed over.
-/

namespace StyleBundler.Script

/-- The two spellings of an attribute clause. -/
inductive AttributeKeyword where
  | withClause
  | assertClause
deriving DecidableEq, Repr, Inhabited

namespace AttributeKeyword

def text : AttributeKeyword → String
  | .withClause => "with"
  | .assertClause => "assert"

def ofText? (s : String) : Option AttributeKeyword :=
  if s = "with" then some .withClause
  else if s = "assert" then some .assertClause
  else none

end AttributeKeyword

structure Attributes where
  keyword : AttributeKeyword
  entries : ObjectLiteral
deriving Repr, Inhabited

/-- The statement `import clause from 'source' with { … };`. -/
structure ImportDeclaration where
  /-- The whole statement, with its semicolon if it has one. -/
  span : Span
  /-- The local name of the default export. -/
  defaultBinding : Option String
  /-- The local name of the namespace object. -/
  namespaceBinding : Option String
  source : String
  /-- The specifier with its quotes. -/
  sourceSpan : Span
  attributes : Option Attributes
deriving Repr, Inhabited

/-- The variable that a call initialises. -/
structure CallBinding where
  name : String
  awaited : Bool
  /-- The call, with the `await` before it. -/
  initialiser : Span
deriving DecidableEq, Repr, Inhabited

structure ImportCall where
  span : Span
  argument : Expr
  options : Option ObjectLiteral
  binding : Option CallBinding
deriving Repr, Inhabited

inductive ImportNode where
  | declaration (d : ImportDeclaration)
  | call (c : ImportCall)
deriving Repr, Inhabited

def ImportNode.span : ImportNode → Span
  | .declaration d => d.span
  | .call c => c.span

/-- The local names that a clause has bound so far. -/
structure ClauseBindings where
  defaultName : Option String
  namespaceName : Option String
deriving DecidableEq, Repr, Inhabited

/-- The name in `as name`. -/
def alias? : List Token → Option String
  | keyword :: name :: _ =>
      if keyword.isIdent "as" then
        match name.kind with
        | .ident localName => some localName
        | _ => none
      else none
  | _ => none

/-- The string literal that a list of tokens starts with. -/
def leadingString? : List Token → Option (String × Span × List Token)
  | t :: ts =>
      match t.kind with
      | .str value => some (value, t.span, ts)
      | _ => none
  | [] => none

/-- Walks a clause up to `from` and a string, outside of braces. `first` marks the
clause's first token, which cannot be that `from`. A semicolon or a brace too many
ends the search. -/
def clause? (first : Bool) (depth : Nat) (found : ClauseBindings) :
    List Token → Option (ClauseBindings × String × Span × List Token)
  | [] => none
  | t :: ts =>
      match t.kind with
      | .punct c =>
          if c = '{' then clause? false (depth + 1) found ts
          else if c = '}' then
            match depth with
            | 0 => none
            | depth + 1 => clause? false depth found ts
          else if c = ';' && depth = 0 then none
          else if c = '*' && depth = 0 then
            clause? false depth ⟨found.defaultName, (alias? ts).or found.namespaceName⟩ ts
          else clause? false depth found ts
      | .ident name =>
          if name = "default" && depth = 1 then
            clause? false depth ⟨found.defaultName.or (alias? ts), found.namespaceName⟩ ts
          else if name = "from" && depth = 0 && !first then
            match leadingString? ts with
            | some (value, span, rest) => some (found, value, span, rest)
            | none => clause? false depth found ts
          else clause? false depth found ts
      | _ => clause? false depth found ts

/-- The default name that stands at the start of a clause. A leading `from` is one
only when another `from` follows. -/
def leadingDefault? : List Token → Option String
  | t :: ts =>
      match t.kind with
      | .ident name =>
          if name != "from" || ts.head?.any (·.isIdent "from") then some name else none
      | _ => none
  | [] => none

/-- The attribute clause behind a specifier, with the tokens after it. `none` when a
clause starts but its object literal is not complete. -/
def attributes? (ts : List Token) : Option (Option Attributes × List Token) :=
  match ts with
  | t :: brace :: rest =>
      match t.kind with
      | .ident name =>
          match AttributeKeyword.ofText? name with
          | some keyword =>
              if brace.isPunct '{' then
                (properties? rest).map fun ⟨(found, stop, rest), _⟩ =>
                  (some ⟨keyword, ⟨⟨brace.span.start, stop⟩, found⟩⟩, rest)
              else some (none, ts)
          | none => some (none, ts)
      | _ => some (none, ts)
  | _ => some (none, ts)

/-- Reads a declaration after its `import` token. -/
def declaration? (start : Nat) (ts : List Token) : Option ImportDeclaration := do
  let (bound, source, sourceSpan, rest) ←
    match leadingString? ts with
    | some (value, span, rest) => some (⟨none, none⟩, value, span, rest)
    | none => clause? true 0 ⟨leadingDefault? ts, none⟩ ts
  let (attributes, rest) ← attributes? rest
  let stop := ((attributes.map (·.entries.span)).getD sourceSpan).stop
  let stop :=
    match rest with
    | t :: _ => if t.isPunct ';' then t.span.stop else stop
    | [] => stop
  some ⟨⟨start, stop⟩, bound.defaultName, bound.namespaceName, source, sourceSpan, attributes⟩

/-- The variable that a call initialises, found in the tokens before it, the nearest
first: `const`, `let` or `var`, a name, an equals sign and perhaps `await`. -/
def callBinding? (call : Span) (before : List Token) : Option CallBinding :=
  let (awaited, start, before) :=
    match before with
    | t :: ts => if t.isIdent "await" then (true, t.span.start, ts) else (false, call.start, before)
    | [] => (false, call.start, [])
  match before with
  | sign :: name :: keyword :: _ =>
      if sign.isPunct '=' && (keyword.isIdent "const" || keyword.isIdent "let" ||
          keyword.isIdent "var") then
        match name.kind with
        | .ident name => some ⟨name, awaited, ⟨start, call.stop⟩⟩
        | _ => none
      else none
  | _ => none

/-- Reads the second argument of a call, after its comma, with the tokens after it. -/
def callOptions? : List Token → Option (Option ObjectLiteral × List Token)
  | [] => none
  | t :: ts =>
      if t.isPunct ')' then some (none, t :: ts)
      else do
        let ⟨(value, rest), _⟩ ← expr? (t :: ts)
        let rest ← skipComma? rest
        some (value.asObject?, rest)

/-- Reads a call after its `import` token and opening parenthesis. -/
def call? (start : Nat) (before ts : List Token) : Option ImportCall := do
  let ⟨(argument, rest), _⟩ ← expr? ts
  let (options, rest) ←
    match rest with
    | [] => none
    | t :: ts => if t.isPunct ',' then callOptions? ts else some (none, t :: ts)
  match rest with
  | t :: _ =>
      if t.isPunct ')' then
        some ⟨⟨start, t.span.stop⟩, argument, options,
          callBinding? ⟨start, t.span.stop⟩ before⟩
      else none
  | [] => none

/-- The import node at a token, given the tokens before it, the nearest first. An
`import` behind a dot is a member, and one before a dot is the meta property. -/
def importNodeAt? (before : List Token) (t : Token) (ts : List Token) : Option ImportNode :=
  if t.isIdent "import" && !before.head?.any (·.isPunct '.') then
    match ts with
    | [] => none
    | next :: rest =>
        if next.isPunct '(' then (call? t.span.start before rest).map .call
        else if next.isPunct '.' then none
        else (declaration? t.span.start (next :: rest)).map .declaration
  else none

def importNodesFrom (before : List Token) : List Token → List ImportNode
  | [] => []
  | t :: ts => (importNodeAt? before t ts).toList ++ importNodesFrom (t :: before) ts

/-- The import nodes of a module, in source order. -/
def importNodes (source : String) : List ImportNode := importNodesFrom [] (tokenize source)

end StyleBundler.Script
