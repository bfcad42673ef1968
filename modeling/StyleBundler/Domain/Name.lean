import StyleBundler.Domain.Direction
import StyleBundler.Domain.Joiner
import StyleBundler.Domain.Mapping
import StyleBundler.Domain.Punycode
import StyleBundler.Text.Composition

/-!
Domain names with characters of all scripts. A name is first brought into its common form,
in which every character is what it is read as; then each of its labels has to be well
formed, as it stands or as what its Punycode stands for.
-/

namespace StyleBundler.Domain

/-- Characters that no domain name may hold in its common form. -/
def isForbidden (c : Char) : Bool :=
  c ≤ ' ' || c == '\x7f' || "#%/:<>?@[\\]^|".toList.contains c

/-- The common form of a name. -/
def commonForm? (name : List Char) : Option (List Char) := do
  let plain := Text.composed (← name.mapM mapped?).flatten
  if plain.any isForbidden then none else some plain

def isAscii (c : Char) : Bool := c.toNat < 128

/-- The longest label with characters outside ASCII. -/
def maxLabel : Nat := 1000

/-- The longest Punycode. -/
def maxCode : Nat := 2000

/-- No label starts with a mark, and joiners stand only where they mean something. -/
def isWellFormed (label : List Char) : Bool :=
  !label.head?.any Text.isMark && joinersFit [] label &&
    (label.all isAscii || label.length ≤ maxLabel)

/-- What a well-formed Punycode stands for: a text in its common form that is not all
ASCII. -/
def decoded? (code : List Char) : Option (List Char) :=
  if code.isEmpty || !code.all isAscii || code.getLast? == some '-' ||
      maxCode < code.length then none
  else
    match Punycode.decode? code with
    | none => none
    | some label =>
        if label.all (fun c => isKept c && !isForbidden c && c != '.') &&
            Text.composed label == label then some label
        else none

/-- The characters that a label stands for, if it is well formed. -/
def label? (label : List Char) : Option (List Char) := do
  let label ←
    match Text.after? "xn--".toList label with
    | some code => decoded? code
    | none => some label
  if isWellFormed label then some label else none

/-- The labels of a name in its common form, if it is well formed. -/
def labels? (name : List Char) : Option (List (List Char)) := do
  let labels := Text.splitOn '.' (← commonForm? name)
  if Direction.areStraight (← labels.mapM label?) then some labels else none

end StyleBundler.Domain
