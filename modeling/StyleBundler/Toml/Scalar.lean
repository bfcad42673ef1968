import StyleBundler.Binary
import StyleBundler.Text.Digits
import StyleBundler.Toml.Value

/-!
Strings, numbers, dates and times of TOML 1.0. A string is read off the text; the other
scalars are words of letters, digits and a few signs, and a word is checked as a whole.
-/

namespace StyleBundler.Toml

open Text

/-- The character with a code point given in hexadecimal; surrogates are none. -/
def codePoint? (digits : List Char) : Option Char :=
  let n := digitsValue 16 digits
  if digits.all isHexDigit && (n < 0xD800 || (0xDFFF < n && n < 0x110000)) then
    some (Char.ofNat n)
  else none

/-- An escape after its backslash. -/
def escape? : Reader Char
  | 'b' :: cs => some ('\x08', cs)
  | 't' :: cs => some ('\t', cs)
  | 'n' :: cs => some ('\n', cs)
  | 'f' :: cs => some ('\x0c', cs)
  | 'r' :: cs => some ('\r', cs)
  | '"' :: cs => some ('"', cs)
  | '\\' :: cs => some ('\\', cs)
  | 'u' :: a :: b :: c :: d :: cs => (codePoint? [a, b, c, d]).map (·, cs)
  | 'U' :: a :: b :: c :: d :: e :: f :: g :: h :: cs =>
      (codePoint? [a, b, c, d, e, f, g, h]).map (·, cs)
  | _ => none

/-- A string on one line after its opening double quote; `fuel` bounds its length. -/
def basicString? : Nat → Reader (List Char)
  | 0, _ => none
  | fuel + 1, cs =>
      match cs with
      | [] => none
      | '"' :: cs => some ([], cs)
      | '\\' :: cs => do
          let (c, cs) ← escape? cs
          let (text, rest) ← basicString? fuel cs
          some (c :: text, rest)
      | c :: cs =>
          if isPlain c then (basicString? fuel cs).map fun (text, rest) => (c :: text, rest)
          else none

/-- A literal string on one line after its opening quote. -/
def literalString? : Reader (List Char)
  | [] => none
  | c :: cs =>
      if c = '\'' then some ([], cs)
      else if isPlain c then (literalString? cs).map fun (text, rest) => (c :: text, rest)
      else none

/-- The end of a text in triple quotes, before which one or two more quotes may stand. -/
def tripleEnd? (quote : Char) : Reader (List Char)
  | a :: b :: c :: d :: e :: cs =>
      if a = quote ∧ b = quote ∧ c = quote then
        if d = quote then
          if e = quote then some ([quote, quote], cs) else some ([quote], e :: cs)
        else some ([], d :: e :: cs)
      else none
  | [a, b, c, d] =>
      if a = quote ∧ b = quote ∧ c = quote then
        if d = quote then some ([quote], []) else some ([], [d])
      else none
  | [a, b, c] => if a = quote ∧ b = quote ∧ c = quote then some ([], []) else none
  | _ => none

/-- What follows a backslash at the end of a line and all white space after it. -/
def afterContinuation? (cs : List Char) : Option (List Char) :=
  (afterNewline? (skipSpace cs)).map go
where
  /-- Skips blanks and line breaks. -/
  go : List Char → List Char
    | ' ' :: cs | '\t' :: cs | '\n' :: cs | '\r' :: '\n' :: cs => go cs
    | cs => cs

/-- A text in triple quotes after its opening ones. Line breaks are kept as one
character each; escapes count only in double quotes. -/
def multilineString? (quote : Char) : Nat → Reader (List Char)
  | 0, _ => none
  | fuel + 1, cs =>
      match tripleEnd? quote cs with
      | some found => some found
      | none =>
          match cs with
          | [] => none
          | '\n' :: cs | '\r' :: '\n' :: cs =>
              (multilineString? quote fuel cs).map fun (text, rest) => ('\n' :: text, rest)
          | c :: cs =>
              if c = '\\' ∧ quote = '"' then
                match escape? cs with
                | some (c, cs) =>
                    (multilineString? quote fuel cs).map fun (text, rest) => (c :: text, rest)
                | none => (afterContinuation? cs).bind (multilineString? quote fuel)
              else if isPlain c then
                (multilineString? quote fuel cs).map fun (text, rest) => (c :: text, rest)
              else none

/-- A string of any of the four kinds. -/
def string? (cs : List Char) : Option (String × List Char) :=
  let afterBreak (cs : List Char) : List Char := (afterNewline? cs).getD cs
  let found :=
    match cs with
    | '"' :: '"' :: '"' :: cs => multilineString? '"' (cs.length + 1) (afterBreak cs)
    | '\'' :: '\'' :: '\'' :: cs => multilineString? '\'' (cs.length + 1) (afterBreak cs)
    | '"' :: cs => basicString? (cs.length + 1) cs
    | '\'' :: cs => literalString? cs
    | _ => none
  found.map fun (text, rest) => (String.ofList text, rest)

/-- Digits with single underscores between them, without those. -/
def digits? (isDigit : Char → Bool) : List Char → Option (List Char)
  | [] => none
  | [c] => if isDigit c then some [c] else none
  | c :: '_' :: cs => if isDigit c then (digits? isDigit cs).map (c :: ·) else none
  | c :: cs => if isDigit c then (digits? isDigit cs).map (c :: ·) else none

/-- Splits a sign off a number. -/
def splitSign : List Char → Bool × List Char
  | '-' :: cs => (true, cs)
  | '+' :: cs => (false, cs)
  | cs => (false, cs)

/-- A decimal number without a leading zero. -/
def decimal? (cs : List Char) : Option (List Char) :=
  match cs with
  | ['0'] => some ['0']
  | '0' :: _ => none
  | _ => digits? Char.isDigit cs

/-- The number of values of 63 bits. -/
def integerLimit : Nat := 0x8000000000000000

/-- A whole number of 64 bits with a sign. -/
def isInteger (word : List Char) : Bool :=
  let inBase (base : Nat) (cs : List Char) : Bool :=
    match digits? (fun c => isHexDigit c && hexValue c < base) cs with
    | some ds => digitsValue base ds < integerLimit
    | none => false
  match word with
  | '0' :: 'x' :: cs => inBase 16 cs
  | '0' :: 'o' :: cs => inBase 8 cs
  | '0' :: 'b' :: cs => inBase 2 cs
  | _ =>
      let (negative, cs) := splitSign word
      match decimal? cs with
      | some ds =>
          let n := digitsValue 10 ds
          n < integerLimit || (negative && n == integerLimit)
      | none => false

/-- Whether a decimal with these digits before and after its point, times a power of
ten, is too large for a number of 64 bits. Decimals far from there are told by their
length. -/
def exceedsDouble (whole part : List Char) (exponent : Int) : Bool :=
  let mantissa := digitsValue 10 (whole ++ part)
  let scale := exponent - part.length
  let size := (toString mantissa).length + scale
  if mantissa = 0 then false
  else if 400 < size then true
  else if size < 300 then false
  else if 0 ≤ scale then Binary.overflow ≤ mantissa * Nat.pow 10 scale.toNat
  else Binary.overflow * Nat.pow 10 (-scale).toNat ≤ mantissa

/-- A number with a fraction or an exponent, an infinity, or no number. -/
def isFloat (word : List Char) : Bool :=
  let (negative, cs) := splitSign word
  let isExponentSign (c : Char) : Bool := c == 'e' || c == 'E'
  let front := cs.takeWhile (!isExponentSign ·)
  let exponent? : Option Int :=
    match cs.dropWhile (!isExponentSign ·) with
    | [] => some 0
    | _ :: es =>
        let (minus, es) := splitSign es
        (digits? Char.isDigit es).map fun ds =>
          let n : Nat := digitsValue 10 ds
          if minus then -(n : Int) else n
  let whole := front.takeWhile (· != '.')
  let part? : Option (List Char) :=
    match front.dropWhile (· != '.') with
    | [] => if cs.any isExponentSign then some [] else none
    | _ :: fs => digits? Char.isDigit fs
  cs == "inf".toList || cs == "nan".toList ||
    match decimal? whole, part?, exponent? with
    | some whole, some part, some exponent => negative || !exceedsDouble whole part exponent
    | _, _, _ => false

/-- A number of exactly two digits, at most `high`. -/
def two? (low high : Nat) (a b : Char) : Option Nat :=
  let n := digitsValue 10 [a, b]
  if a.isDigit && b.isDigit && low ≤ n && n ≤ high then some n else none

def daysIn (year month : Nat) : Nat :=
  if month = 2 then
    if year % 4 = 0 && (year % 100 != 0 || year % 400 = 0) then 29 else 28
  else if month = 4 || month = 6 || month = 9 || month = 11 then 30
  else 31

/-- A date, with the text behind it. -/
def date? : Reader String
  | a :: b :: c :: d :: '-' :: m :: n :: '-' :: x :: y :: rest => do
      let month ← two? 1 12 m n
      let day ← two? 1 31 x y
      if [a, b, c, d].all Char.isDigit && day ≤ daysIn (digitsValue 10 [a, b, c, d]) month then
        some (String.ofList [a, b, c, d, '-', m, n, '-', x, y], rest)
      else none
  | _ => none

/-- A fraction of a second: nine digits at most, without the zeros at the end. -/
def fraction (digits : List Char) : String :=
  let kept := ((digits.take 9).reverse.dropWhile (· == '0')).reverse
  if kept.isEmpty then "" else "." ++ String.ofList kept

def time? : Reader String
  | a :: b :: ':' :: m :: n :: ':' :: x :: y :: rest => do
      let _ ← two? 0 23 a b
      let _ ← two? 0 59 m n
      let _ ← two? 0 60 x y
      let text := String.ofList [a, b, ':', m, n, ':', x, y]
      match rest with
      | '.' :: rest =>
          let digits := rest.takeWhile Char.isDigit
          if digits.isEmpty then none
          else some (text ++ fraction digits, rest.dropWhile Char.isDigit)
      | _ => some (text, rest)
  | _ => none

/-- An offset from universal time that is the whole rest of a word. -/
def offset? : List Char → Option String
  | [] => some ""
  | ['Z'] | ['z'] => some "Z"
  | [sign, a, b, ':', m, n] => do
      let hours ← two? 0 23 a b
      let minutes ← two? 0 59 m n
      let sign' := if sign = '-' && hours + minutes != 0 then '-' else '+'
      if sign = '+' || sign = '-' then some (String.ofList [sign', a, b, ':', m, n]) else none
  | _ => none

/-- A date, a time, or both with or without an offset, that is a whole word. -/
def datetime? (word : List Char) : Option String :=
  match date? word with
  | some (date, []) => some date
  | some (date, c :: rest) =>
      if c = 'T' || c = 't' || c = ' ' then do
        let (time, rest) ← time? rest
        let offset ← offset? rest
        some (date ++ "T" ++ time ++ offset)
      else none
  | none =>
      match time? word with
      | some (time, []) => some time
      | _ => none

def isWordChar (c : Char) : Bool :=
  c.isAlphanum || c == '_' || c == '+' || c == '-' || c == '.' || c == ':'

/-- A word, with the time behind a date and one blank. -/
def splitWord (cs : List Char) : List Char × List Char :=
  let word := cs.takeWhile isWordChar
  match cs.dropWhile isWordChar with
  | ' ' :: d :: rest =>
      if (date? word).any (fun found => found.2.isEmpty) && d.isDigit then
        (word ++ ' ' :: (d :: rest).takeWhile isWordChar, (d :: rest).dropWhile isWordChar)
      else (word, ' ' :: d :: rest)
  | rest => (word, rest)

/-- A boolean, number, date or time. -/
def scalar? (cs : List Char) : Option (Value × List Char) :=
  let (word, rest) := splitWord cs
  if word == "true".toList then some (.boolean true, rest)
  else if word == "false".toList then some (.boolean false, rest)
  else
    match datetime? word with
    | some text => some (.datetime text, rest)
    | none =>
        if isInteger word then some (.integer, rest)
        else if isFloat word then some (.float, rest)
        else none

end StyleBundler.Toml
