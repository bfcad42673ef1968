import StyleBundler.Sheet.Brace
import StyleBundler.Text.Blank

/-!
A stylesheet as an ordered list of top-level rules. Comments outside of blocks are
dropped and white space around preludes and blocks is trimmed; nothing is checked.
-/

namespace StyleBundler

/-- A top-level rule: what stands before its block or semicolon, and the block. -/
structure Rule where
  prelude : String
  block : Option String
deriving DecidableEq, Repr, Inhabited

def Rule.text (r : Rule) : String :=
  match r.block with
  | some block => r.prelude ++ " \x7b" ++ block ++ "\x7d"
  | none => r.prelude ++ ";"

namespace Sheet

/-- A rule without a block needs a prelude. -/
def statement? (prelude : List Char) : Option Rule :=
  let prelude := Text.trim prelude
  if prelude.isEmpty then none else some ⟨String.ofList prelude, none⟩

def blockRule (prelude body : List Char) : Rule :=
  ⟨String.ofList (Text.trim prelude), some (String.ofList (Text.trim body))⟩

/-- The rules of a text, where `prelude` holds what was read of the first one, the last
character first. A prelude that nothing ends makes no rule. -/
def rulesFrom (prelude : List Char) : List Char → List Rule
  | [] => []
  | '/' :: '*' :: cs =>
      have := length_afterComment_le cs
      rulesFrom prelude (afterComment cs)
  | c :: cs =>
      if c = '"' ∨ c = '\'' then
        have := length_splitString_le c cs
        rulesFrom ((splitString c cs).1.reverse ++ c :: prelude) (splitString c cs).2
      else if c = ';' then (statement? prelude.reverse).toList ++ rulesFrom [] cs
      else if c = '{' then
        have := length_splitBlock_le .plain 0 cs
        blockRule prelude.reverse (splitBlock .plain 0 cs).1 ::
          rulesFrom [] (splitBlock .plain 0 cs).2
      else rulesFrom (c :: prelude) cs
termination_by cs => cs.length
decreasing_by all_goals (simp; try omega)

/-- The top-level rules of a stylesheet. -/
def parse (css : String) : List Rule := rulesFrom [] css.toList

end Sheet
end StyleBundler
