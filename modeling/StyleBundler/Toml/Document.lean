import StyleBundler.Toml.Scalar
import StyleBundler.Toml.Table

/-!
Reading a TOML 1.0 document: lines that open tables or give values to keys, with
comments and blank lines between them. Arrays and inline tables are nested less than
`depthLimit` deep, and a dotted key has fewer parts than that.
-/

namespace StyleBundler.Toml

def depthLimit : Nat := 80

def isBareKeyChar (c : Char) : Bool := c.isAlphanum || c == '_' || c == '-'

/-- One part of a key: a quoted string on one line, or a bare word. -/
def keyPart? (cs : List Char) : Option (String × List Char) :=
  match cs with
  | '"' :: cs => (basicString? (cs.length + 1) cs).map fun (k, rest) => (String.ofList k, rest)
  | '\'' :: cs => (literalString? cs).map fun (k, rest) => (String.ofList k, rest)
  | _ =>
      let word := cs.takeWhile isBareKeyChar
      if word.isEmpty then none else some (String.ofList word, cs.dropWhile isBareKeyChar)

/-- The parts of a dotted key, `count` at most and the last one apart; blanks may stand
around each. -/
def keyParts? : Nat → Reader (List String × String)
  | 0, _ => none
  | count + 1, cs => do
      let (part, rest) ← keyPart? (skipSpace cs)
      match skipSpace rest with
      | '.' :: rest => do
          let ((path, last), rest) ← keyParts? count rest
          some ((part :: path, last), rest)
      | rest => some (([], part), rest)

/-- A key, dotted or not. -/
def key? : Reader (List String × String) := keyParts? (depthLimit - 1)

/-- What follows a comment and its line break. -/
def afterComment? (cs : List Char) : Option (List Char) :=
  afterNewline? (cs.dropWhile isPlain)

/-- Skips blanks, line breaks and comments within an array. -/
def skipLines? : Nat → List Char → Option (List Char)
  | 0, _ => none
  | fuel + 1, cs =>
      match skipSpace cs with
      | '#' :: rest => (afterComment? rest).bind (skipLines? fuel)
      | '\n' :: rest | '\r' :: '\n' :: rest => skipLines? fuel rest
      | '\r' :: _ => none
      | rest => some rest

/-- The table that the entries of an inline table make up. -/
def inlineTable? (entries : List ((List String × String) × Value)) : Option Value :=
  (entries.foldlM (fun found ((path, key), value) => insertKey path key value found) []).map
    fun found => .table (closeEntries found)

mutual

/-- Reads a value; `fuel` bounds the length of the text, `depth` is the nesting so
far. -/
def value? : Nat → Nat → Reader Value
  | 0, _, _ => none
  | fuel + 1, depth, cs =>
      match cs with
      | '"' :: _ | '\'' :: _ => (string? cs).map fun (s, rest) => (.string s, rest)
      | '[' :: rest =>
          if depthLimit ≤ depth + 1 then none
          else (items? fuel (depth + 1) rest).map fun (items, rest) => (.array items, rest)
      | '{' :: rest =>
          if depthLimit ≤ depth + 1 then none
          else
            match skipSpace rest with
            | '}' :: rest => some (.table [], rest)
            | _ => do
                let (entries, rest) ← entries? fuel (depth + 1) rest
                let table ← inlineTable? entries
                some (table, rest)
      | _ => scalar? cs

/-- The items of an array up to its closing bracket; a comma may stand behind the
last. -/
def items? : Nat → Nat → Reader (List Value)
  | 0, _, _ => none
  | fuel + 1, depth, cs => do
      match ← skipLines? (cs.length + 1) cs with
      | ']' :: rest => some ([], rest)
      | cs =>
          let (item, rest) ← value? fuel depth cs
          match ← skipLines? (rest.length + 1) rest with
          | ',' :: rest =>
              let (items, rest) ← items? fuel depth rest
              some (item :: items, rest)
          | ']' :: rest => some ([item], rest)
          | _ => none

/-- The entries of an inline table up to its closing brace, on one line. -/
def entries? : Nat → Nat → Reader (List ((List String × String) × Value))
  | 0, _, _ => none
  | fuel + 1, depth, cs => do
      let (key, rest) ← key? cs
      match rest with
      | '=' :: rest =>
          let (value, rest) ← value? fuel depth (skipSpace rest)
          match skipSpace rest with
          | ',' :: rest =>
              let (entries, rest) ← entries? fuel depth rest
              some ((key, value) :: entries, rest)
          | '}' :: rest => some ([(key, value)], rest)
          | _ => none
      | _ => none

end

/-- The end of a line: blanks, perhaps a comment, and a line break or the end of the
text. -/
def afterLine? (cs : List Char) : Option (List Char) :=
  let rest :=
    match skipSpace cs with
    | '#' :: rest => rest.dropWhile isPlain
    | rest => rest
  match rest with
  | [] => some []
  | rest => afterNewline? rest

/-- Reads the lines of a document. -/
def lines? : Nat → Draft → List Char → Option Draft
  | 0, _, _ => none
  | fuel + 1, draft, cs =>
      match skipSpace cs with
      | [] => some draft
      | '#' :: rest => (afterLine? ('#' :: rest)).bind (lines? fuel draft)
      | '\n' :: rest | '\r' :: '\n' :: rest => lines? fuel draft rest
      | '[' :: '[' :: rest => do
          let ((path, key), rest) ← key? rest
          match rest with
          | ']' :: ']' :: rest =>
              let rest ← afterLine? rest
              let draft ← draft.openElement path key
              lines? fuel draft rest
          | _ => none
      | '[' :: rest => do
          let ((path, key), rest) ← key? rest
          match rest with
          | ']' :: rest =>
              let rest ← afterLine? rest
              let draft ← draft.openTable path key
              lines? fuel draft rest
          | _ => none
      | cs => do
          let ((path, key), rest) ← key? cs
          match rest with
          | '=' :: rest =>
              let rest := skipSpace rest
              let (value, rest) ← value? (2 * rest.length + 2) 0 rest
              let rest ← afterLine? rest
              let draft ← draft.insert path key value
              lines? fuel draft rest
          | _ => none

/-- The top-level table of a document; a byte order mark at its start is dropped. -/
def parse? (text : String) : Option (List (String × Value)) := do
  let cs :=
    match text.toList with
    | '\uFEFF' :: cs => cs
    | cs => cs
  let draft ← lines? (cs.length + 1) .empty cs
  let entries ← draft.finish
  some (closeEntries entries)

end StyleBundler.Toml
