import StyleBundler.Text.Digits
import StyleBundler.Text.Split

/-!
Numeric addresses in place of a domain name: dotted ones of up to four numbers, and those
in brackets of eight groups.
-/

namespace StyleBundler.Url

open Text

/-- The outcome of reading a part of a dotted address. -/
inductive AddressPart where
  | malformed
  | tooLarge
  | number (n : Nat)
deriving DecidableEq

/-- A decimal, octal (leading zero) or hexadecimal (leading `0x`) number below 2^32. -/
def addressPart (cs : List Char) : AddressPart :=
  let (base, digits) : Nat × List Char :=
    match cs with
    | '0' :: 'x' :: rest | '0' :: 'X' :: rest => (16, rest)
    | '0' :: d :: rest => (8, d :: rest)
    | _ => (10, cs)
  let isDigit : Char → Bool := fun c => isHexDigit c && hexValue c < base
  if cs.isEmpty || !digits.all isDigit then .malformed
  else if digitsValue base digits < 0x100000000 then .number (digitsValue base digits)
  else .tooLarge

/-- Whether the last label of a domain is a number, so that the domain has to be a
dotted address. -/
def endsInNumber (labels : List (List Char)) : Bool :=
  let last :=
    match labels.reverse with
    | [] => none
    | [] :: [] => none
    | [] :: label :: _ => some label
    | label :: _ => some label
  match last with
  | none => false
  | some label =>
      (!label.isEmpty && label.all Char.isDigit) || addressPart label != .malformed

/-- At most four numbers; all but the last are bytes, and the last fills the bytes
that are left. -/
def isDottedAddress (labels : List (List Char)) : Bool :=
  let parts := if labels.getLast? == some [] then labels.dropLast else labels
  let numbers := parts.filterMap fun part =>
    match addressPart part with
    | .number n => some n
    | _ => none
  parts.length ≤ 4 && numbers.length == parts.length &&
    match numbers.reverse with
    | [] => false
    | last :: front => last < Nat.pow 2 (32 - 8 * front.length) && front.all (· < 256)

/-- Four decimal numbers below 256 without leading zeros. -/
def isPlainDottedAddress (cs : List Char) : Bool :=
  let parts := splitOn '.' cs
  parts.length == 4 && parts.all fun part =>
    !part.isEmpty && part.all Char.isDigit && (part.length == 1 || part.head? != some '0') &&
      part.length ≤ 3 && digitsValue 10 part < 256

/-- The number of 16-bit groups that a list of pieces between colons stands for; the
last piece may be a dotted address when nothing follows it. -/
def groupCount? (isLast : Bool) : List (List Char) → Option Nat
  | [] => some 0
  | [piece] =>
      if !piece.isEmpty && piece.length ≤ 4 && piece.all isHexDigit then some 1
      else if isLast && isPlainDottedAddress piece then some 2
      else none
  | piece :: pieces =>
      if !piece.isEmpty && piece.length ≤ 4 && piece.all isHexDigit then
        (groupCount? isLast pieces).map (· + 1)
      else none

/-- The text before and after the first pair of colons. -/
def splitDoubleColon? : List Char → Option (List Char × List Char)
  | ':' :: ':' :: rest => some ([], rest)
  | c :: cs => (splitDoubleColon? cs).map fun parts => (c :: parts.1, parts.2)
  | [] => none

/-- Eight groups, or fewer with one pair of colons for the missing ones. -/
def isBracketAddress (cs : List Char) : Bool :=
  let groups (isLast : Bool) (part : List Char) : Option Nat :=
    if part.isEmpty then some 0 else groupCount? isLast (splitOn ':' part)
  match splitDoubleColon? cs with
  | none => groups true cs == some 8
  | some (front, back) =>
      match groups false front, groups true back with
      | some m, some n => m + n ≤ 7
      | _, _ => false

end StyleBundler.Url
