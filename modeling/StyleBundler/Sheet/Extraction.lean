import StyleBundler.Sheet.Rule

/-!
Named sheets in a combined stylesheet. A sheet stands in a block under the condition
`@supports sheet(name)`. `extract?` searches for it; a `Memo` remembers what was
found, so that a sheet asked for again is the very same object.
-/

namespace StyleBundler.Sheet

/-- The block that holds a named sheet. -/
def namedBlock (name content : String) : String :=
  "@supports sheet(" ++ name ++ ") \x7b" ++ content ++ "\x7d\n"

/-- The name in a prelude of the form `@supports sheet(name)`: not empty and on one
line. -/
def conditionName? (prelude : List Char) : Option (List Char) := do
  let cs ← Text.after? "@supports".toList prelude
  let cs ← Text.skipBlanks? cs
  let cs ← Text.after? "sheet(".toList cs
  if cs.getLast? == some ')' && !cs.dropLast.isEmpty && !cs.dropLast.contains '\n' then
    some cs.dropLast
  else none

/-- The block of a rule that holds the sheet of that name. -/
def blockNamed? (name : String) (r : Rule) : Option String :=
  if conditionName? r.prelude.toList == some name.toList then r.block else none

/-- The rules in the first block that holds the sheet of that name. -/
def extract? (rules : List Rule) (name : String) : Option (List Rule) :=
  (rules.findSome? (blockNamed? name)).map parse

/-- A combined stylesheet under its file name. -/
structure Combined where
  name : String
  rules : List Rule
deriving DecidableEq, Repr, Inhabited

def Combined.ofSource (name source : String) : Combined := ⟨name, parse source⟩

/-- A sheet that was extracted, under the names it was asked for with. -/
structure Extracted where
  combined : String
  name : String
  rules : List Rule
deriving DecidableEq, Repr, Inhabited

/-- Everything extracted so far, in order; the place of an entry is the identity of its
object. -/
structure Memo where
  entries : List Extracted
deriving DecidableEq, Repr, Inhabited

namespace Memo

def empty : Memo := ⟨[]⟩

def Answers (combined name : String) (e : Extracted) : Bool :=
  e.combined == combined && e.name == name

/-- The object for a name, with its identity. What is not found is not remembered. -/
def lookup (memo : Memo) (combined : Combined) (name : String) :
    Option (Nat × List Rule) × Memo :=
  match memo.entries.findIdx? (Answers combined.name name) with
  | some i => ((memo.entries[i]?).map fun e => (i, e.rules), memo)
  | none =>
      match extract? combined.rules name with
      | some rules =>
          (some (memo.entries.length, rules), ⟨memo.entries ++ [⟨combined.name, name, rules⟩]⟩)
      | none => (none, memo)

end Memo
end StyleBundler.Sheet
