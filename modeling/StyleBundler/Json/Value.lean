import StyleBundler.Json.Number

/-!
Reading JSON. The reader is strict: no text but blanks around the value, no control
characters in strings, no half of a surrogate pair, no number too large for 64 bits,
and fewer arrays and objects inside each other than `depthLimit`. Of numbers only the form
counts.
-/

namespace StyleBundler.Json

open Text

inductive Value where
  | null
  | boolean (b : Bool)
  | number
  | string (s : String)
  | array (items : List Value)
  | object (members : List (String × Value))
deriving Repr, Inhabited

/-- The last member of that name. -/
def Value.member? (v : Value) (name : String) : Option Value :=
  match v with
  | .object members => members.reverse.lookup name
  | _ => none

def Value.asString? : Value → Option String
  | .string s => some s
  | _ => none

def isBlank (c : Char) : Bool := c == ' ' || c == '\t' || c == '\n' || c == '\r'

def skipBlanks (cs : List Char) : List Char := cs.dropWhile isBlank

/-- The 16-bit unit that four hexadecimal digits stand for. -/
def unit? (digits : List Char) : Option Nat :=
  if digits.all isHexDigit then some (digitsValue 16 digits) else none

/-- An escape after its backslash; two halves of a surrogate pair are one character. -/
def escaped? : List Char → Option (Char × List Char)
  | '"' :: cs => some ('"', cs)
  | '\\' :: cs => some ('\\', cs)
  | '/' :: cs => some ('/', cs)
  | 'b' :: cs => some ('\x08', cs)
  | 'f' :: cs => some ('\x0c', cs)
  | 'n' :: cs => some ('\n', cs)
  | 'r' :: cs => some ('\r', cs)
  | 't' :: cs => some ('\t', cs)
  | 'u' :: a :: b :: c :: d :: cs => do
      let high ← unit? [a, b, c, d]
      if high < 0xD800 || 0xDFFF < high then some (Char.ofNat high, cs)
      else if 0xDBFF < high then none
      else
        match cs with
        | '\\' :: 'u' :: a :: b :: c :: d :: cs => do
            let low ← unit? [a, b, c, d]
            if 0xDC00 ≤ low && low ≤ 0xDFFF then
              some (Char.ofNat (0x10000 + (high - 0xD800) * 0x400 + (low - 0xDC00)), cs)
            else none
        | _ => none
  | _ => none

/-- A string after its opening quote; `fuel` bounds its length. -/
def string? : Nat → List Char → Option (List Char × List Char)
  | 0, _ => none
  | fuel + 1, cs =>
      match cs with
      | [] => none
      | '"' :: cs => some ([], cs)
      | '\\' :: cs => do
          let (c, cs) ← escaped? cs
          let (text, rest) ← string? fuel cs
          some (c :: text, rest)
      | c :: cs =>
          if c < ' ' then none
          else (string? fuel cs).map fun (text, rest) => (c :: text, rest)

def depthLimit : Nat := 128

mutual

/-- A value at the start of a text; `depth` is the number of arrays and objects around
it. -/
def value? : Nat → Nat → List Char → Option (Value × List Char)
  | 0, _, _ => none
  | fuel + 1, depth, cs =>
      match skipBlanks cs with
      | 'n' :: 'u' :: 'l' :: 'l' :: rest => some (.null, rest)
      | 't' :: 'r' :: 'u' :: 'e' :: rest => some (.boolean true, rest)
      | 'f' :: 'a' :: 'l' :: 's' :: 'e' :: rest => some (.boolean false, rest)
      | '"' :: rest =>
          (string? (rest.length + 1) rest).map fun (s, rest) =>
            (.string (String.ofList s), rest)
      | '[' :: rest =>
          if depthLimit ≤ depth + 1 then none
          else
            match skipBlanks rest with
            | ']' :: rest => some (.array [], rest)
            | rest => (items? fuel (depth + 1) rest).map fun (xs, rest) => (.array xs, rest)
      | '{' :: rest =>
          if depthLimit ≤ depth + 1 then none
          else
            match skipBlanks rest with
            | '}' :: rest => some (.object [], rest)
            | rest => (members? fuel (depth + 1) rest).map fun (ms, rest) => (.object ms, rest)
      | rest => (afterNumber? rest).map fun rest => (.number, rest)

def items? : Nat → Nat → List Char → Option (List Value × List Char)
  | 0, _, _ => none
  | fuel + 1, depth, cs => do
      let (item, rest) ← value? fuel depth cs
      match skipBlanks rest with
      | ',' :: rest =>
          let (items, rest) ← items? fuel depth rest
          some (item :: items, rest)
      | ']' :: rest => some ([item], rest)
      | _ => none

def members? : Nat → Nat → List Char → Option (List (String × Value) × List Char)
  | 0, _, _ => none
  | fuel + 1, depth, cs =>
      match skipBlanks cs with
      | '"' :: rest => do
          let (key, rest) ← string? (rest.length + 1) rest
          match skipBlanks rest with
          | ':' :: rest =>
              let (value, rest) ← value? fuel depth rest
              match skipBlanks rest with
              | ',' :: rest =>
                  let (members, rest) ← members? fuel depth rest
                  some ((String.ofList key, value) :: members, rest)
              | '}' :: rest => some ([(String.ofList key, value)], rest)
              | _ => none
          | _ => none
      | _ => none

end

/-- The value of a whole text. -/
def parse? (text : String) : Option Value := do
  let cs := text.toList
  let (value, rest) ← value? (2 * cs.length + 2) 0 cs
  if (skipBlanks rest).isEmpty then some value else none

end StyleBundler.Json
