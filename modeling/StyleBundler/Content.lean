import StyleBundler.Text.Split

/-!
Transforms of stylesheet content. A transform gives the new content or the reason why
it gave up.
-/

namespace StyleBundler

abbrev ContentTransform := String → Except String String

/-- Shrinking stylesheets is left to a tool of its own; a build that asks for it stops
at the first stylesheet. -/
def ContentTransform.minify : ContentTransform := fun _ =>
  .error "stylesheets are minified by a separate tool"

namespace Text

/-- Replaces every occurrence of `old`, none overlapping another; an empty `old` stands
between any two characters and at both ends. `skip` counts the characters that the last
occurrence still covers. -/
def replaceFrom (old new : List Char) (skip : Nat) : List Char → List Char
  | [] => if old.isEmpty then new else []
  | c :: cs =>
      match skip with
      | skip + 1 => replaceFrom old new skip cs
      | 0 =>
          if old.isEmpty then new ++ c :: replaceFrom old new 0 cs
          else if (after? old (c :: cs)).isSome then
            new ++ replaceFrom old new (old.length - 1) cs
          else c :: replaceFrom old new 0 cs

def replaceAll (old new s : String) : String :=
  String.ofList (replaceFrom old.toList new.toList 0 s.toList)

end Text

/-- A transform given as data: it may fail, replace a text, turn ASCII letters to upper
case, and put texts around the content, in this order. -/
structure ContentEdit where
  failure : Option String
  replacement : Option (String × String)
  upper : Bool
  front : String
  back : String
deriving DecidableEq, Repr, Inhabited

def ContentEdit.apply (e : ContentEdit) : ContentTransform := fun content =>
  match e.failure with
  | some reason => .error reason
  | none =>
      let content :=
        match e.replacement with
        | some (old, new) => Text.replaceAll old new content
        | none => content
      let content := if e.upper then content.map Char.toUpper else content
      .ok (e.front ++ content ++ e.back)

end StyleBundler
