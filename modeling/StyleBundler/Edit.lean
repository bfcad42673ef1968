import StyleBundler.Span

/-!
Text edits of one source. Edits are collected in any order and applied together: they
are sorted by position, an insertion before a replacement that starts at the same
offset, and refused when one does not fit the text or two of them overlap. The result
is a list of patches, each copied from the source or put in place of a part of it.
-/

namespace StyleBundler

/-- The text of `span` gives way to `replacement`; an empty span inserts. -/
structure Edit where
  span : Span
  replacement : String
deriving DecidableEq, Repr, Inhabited

inductive EditError where
  | overlapping (span : Span)
  | outOfBounds (span : Span)
deriving DecidableEq, Repr

def Span.text (s : Span) : String := toString s.start ++ ".." ++ toString s.stop

def EditError.message : EditError → String
  | .overlapping s => "overlapping source edits at " ++ s.text
  | .outOfBounds s => "source edit " ++ s.text ++ " is out of bounds"

/-- The edits of one source, and the texts to put before it, the latest first. -/
structure Edits where
  edits : List Edit
  front : List String
deriving DecidableEq, Repr, Inhabited

/-- A stretch of the edited text: copied from the offset `origin` of the source, or
put in place of what started there. -/
structure Patch where
  copied : Bool
  origin : Nat
  text : List Char
deriving DecidableEq, Repr

/-- A source after its edits: the texts in front and the patches after them. -/
structure EditedText where
  front : List Char
  patches : List Patch
deriving DecidableEq, Repr

def EditedText.code (r : EditedText) : List Char := r.front ++ r.patches.flatMap Patch.text

namespace Edit

/-- An insertion comes before a replacement that starts at the same offset. -/
def precedes (a b : Edit) : Bool :=
  a.span.start < b.span.start ||
    (a.span.start == b.span.start && (a.span.isEmpty || !b.span.isEmpty))

/-- Both ends are character boundaries of the source, in order. -/
def fits (source : List Char) (e : Edit) : Bool := (Text.slice? source e.span).isSome

/-- The source from the start of an edit on, if the edit fits. Of the source there is
`rest`, from the offset `cursor` on. -/
def place? (cursor : Nat) (rest : List Char) (e : Edit) : Option (List Char) :=
  if e.span.start ≤ e.span.stop then do
    let (_, tail) ← Text.cut? (e.span.start - cursor) rest
    let _ ← Text.cut? (e.span.stop - e.span.start) tail
    some tail
  else none

theorem isSome_place? (a rest : List Char) {e : Edit} (h : Text.byteLength a ≤ e.span.start) :
    (place? (Text.byteLength a) rest e).isSome = e.fits (a ++ rest) := by
  obtain ⟨n, hn⟩ := Nat.exists_eq_add_of_le h
  simp only [place?, fits, Text.slice?, hn, Text.cut?_append_add, Nat.add_sub_cancel_left]
  split
  · cases Text.cut? n rest with
    | none => rfl
    | some parts =>
        simp only [Option.map_some, Option.bind_eq_bind, Option.bind_some]
        cases Text.cut? (e.span.stop - (Text.byteLength a + n)) parts.2 <;> rfl
  · rfl

end Edit

namespace Edits

def empty : Edits := ⟨[], []⟩

def overwrite (s : Edits) (span : Span) (replacement : String) : Edits :=
  { s with edits := s.edits ++ [⟨span, replacement⟩] }

def remove (s : Edits) (span : Span) : Edits := s.overwrite span ""

/-- Puts a text before everything, earlier texts of this kind included. -/
def prepend (s : Edits) (text : String) : Edits :=
  { s with front := text :: s.front }

def isEmpty (s : Edits) : Bool := s.edits.isEmpty && s.front.isEmpty

def size (s : Edits) : Nat := s.edits.length + s.front.length

/-- The first edit, in order, that does not fit the source or starts before `last`,
the end of the one before it. Of the source there is `rest`, from the offset `cursor`
on, where that one starts. -/
def firstError? (cursor : Nat) (rest : List Char) (last : Nat) : List Edit → Option EditError
  | [] => none
  | e :: es =>
      match e.place? cursor rest with
      | none => some (.outOfBounds e.span)
      | some tail =>
          if e.span.start < last then some (.overlapping e.span)
          else firstError? e.span.start tail e.span.stop es

/-- The patches of what is left of a source from the offset `cursor` on. -/
def patches (cursor : Nat) (rest : List Char) : List Edit → List Patch
  | [] => if rest.isEmpty then [] else [⟨true, cursor, rest⟩]
  | e :: es =>
      let (kept, tail) := (Text.cut? (e.span.start - cursor) rest).getD (rest, [])
      let (_, tail) := (Text.cut? (e.span.stop - e.span.start) tail).getD ([], tail)
      (if kept.isEmpty then [] else [⟨true, cursor, kept⟩]) ++
        (if e.replacement.isEmpty then [] else [⟨false, e.span.start, e.replacement.toList⟩]) ++
        patches e.span.stop tail es

/-- Applies all edits; nothing when there are none. -/
def apply (s : Edits) (source : List Char) : Except EditError (Option EditedText) :=
  if s.isEmpty then .ok none
  else
    let sorted := s.edits.mergeSort Edit.precedes
    match firstError? 0 source 0 sorted with
    | some error => .error error
    | none => .ok (some ⟨(String.join s.front).toList, patches 0 source sorted⟩)

/-- The text after all edits. -/
def applyText (s : Edits) (source : String) : Except EditError String :=
  (s.apply source.toList).map fun edited =>
    match edited with
    | some r => String.ofList r.code
    | none => source

end Edits
end StyleBundler
