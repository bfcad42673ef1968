/-!
Reading braces in a stylesheet. A brace counts only outside of quoted strings and
comments; a scanner state says where a character stands. States compose: a text read
after another one is read from the state that the first one ends in, so a text that is
`SelfContained` can stand in a block without opening or closing anything around it.
-/

namespace StyleBundler.Sheet

/-- Where the next character stands. `slash` and `star` remember the first sign of a
comment's delimiter. -/
inductive Mode where
  | plain
  | slash
  | quoted (quote : Char)
  | escaped (quote : Char)
  | comment
  | star
deriving DecidableEq, Repr

namespace Mode

/-- Outside of strings and comments. -/
def isCode : Mode → Bool
  | plain | slash => true
  | _ => false

def ofCode (c : Char) : Mode :=
  if c = '/' then slash
  else if c = '"' ∨ c = '\'' then quoted c
  else plain

def next : Mode → Char → Mode
  | plain, c => ofCode c
  | slash, c => if c = '*' then comment else ofCode c
  | quoted q, c => if c = '\\' then escaped q else if c = q then plain else quoted q
  | escaped q, _ => quoted q
  | comment, c => if c = '*' then star else comment
  | star, c => if c = '/' then plain else if c = '*' then star else comment

end Mode

/-- Splits a text at the brace that closes a block, which is dropped; `depth` counts
the blocks opened inside. Without that brace the block is the whole text. -/
def splitBlock (mode : Mode) (depth : Nat) : List Char → List Char × List Char
  | [] => ([], [])
  | c :: cs =>
      if mode.isCode && c == '}' then
        match depth with
        | 0 => ([], cs)
        | depth + 1 =>
            let (body, rest) := splitBlock .plain depth cs
            (c :: body, rest)
      else
        let depth := if mode.isCode && c == '{' then depth + 1 else depth
        let (body, rest) := splitBlock (mode.next c) depth cs
        (c :: body, rest)

theorem length_splitBlock_le (mode : Mode) (depth : Nat) (cs : List Char) :
    (splitBlock mode depth cs).2.length ≤ cs.length := by
  induction cs generalizing mode depth with
  | nil => simp [splitBlock]
  | cons c cs ih =>
      simp only [splitBlock]
      split
      · cases depth with
        | zero => simp
        | succ depth => exact Nat.le_succ_of_le (ih .plain depth)
      · exact Nat.le_succ_of_le (ih _ _)

/-- The state and the number of open blocks after a text; nothing when the text closes
a block that it did not open. -/
def readBraces (mode : Mode) (depth : Nat) : List Char → Option (Mode × Nat)
  | [] => some (mode, depth)
  | c :: cs =>
      if mode.isCode && c == '}' then
        match depth with
        | 0 => none
        | depth + 1 => readBraces .plain depth cs
      else readBraces (mode.next c) (if mode.isCode && c == '{' then depth + 1 else depth) cs

/-- Every string, comment and block that the text opens it closes, and it closes
nothing else. -/
def SelfContained (css : List Char) : Prop :=
  readBraces .plain 0 css = some (.plain, 0) ∨ readBraces .plain 0 css = some (.slash, 0)

instance (css : List Char) : Decidable (SelfContained css) := by
  unfold SelfContained; infer_instance

/-- A string after its opening quote, with its closing one, and what follows. It may
hold line breaks. -/
def splitString (quote : Char) : List Char → List Char × List Char
  | [] => ([], [])
  | '\\' :: c :: cs =>
      let (text, rest) := splitString quote cs
      ('\\' :: c :: text, rest)
  | c :: cs =>
      if c = quote then ([c], cs)
      else
        let (text, rest) := splitString quote cs
        (c :: text, rest)

theorem length_splitString_le (quote : Char) (cs : List Char) :
    (splitString quote cs).2.length ≤ cs.length := by
  fun_induction splitString quote cs <;> simp_all <;> omega

/-- What follows a comment whose opening signs are read. -/
def afterComment : List Char → List Char
  | [] => []
  | '*' :: '/' :: cs => cs
  | _ :: cs => afterComment cs

theorem length_afterComment_le (cs : List Char) : (afterComment cs).length ≤ cs.length := by
  fun_induction afterComment cs <;> simp_all <;> omega

end StyleBundler.Sheet
