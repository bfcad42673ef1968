import StyleBundler.Script.Lexer

/-!
Reading the tokens of a script by a byte offset. The loops go on byte by byte, two bytes over an
escape, and look at single bytes only; text is taken from the source by slices. There is no result
where a slice does not fit the source, an end of it being inside a character or behind the text,
and none where a loop stays in one place or goes on behind the text, so that it would not end. What
is read are the tokens of the text (`tokenizeBytes_eq`), so that none of this happens.
-/

namespace StyleBundler.Script

open Text Lexer

namespace Cursor

section Source

variable (cs : List Char)

/-- The bytes of the source in UTF-8, each as the character of its number. -/
def bytes : List Char :=
  (cs.flatMap String.utf8EncodeChar).map Char.ofUInt8

/-- The byte at an offset. -/
def peek (pos : Nat) : Option Char := (bytes cs)[pos]?

variable {cs} in
theorem lt_of_peek {pos : Nat} {b : Char} (h : peek cs pos = some b) : pos < (bytes cs).length :=
  (List.getElem?_eq_some_iff.mp h).1

/-- Goes on with the byte at an offset, or stops behind the text. -/
def onByte {α : Type} (pos : Nat) (stop : α) (go : Char → pos < (bytes cs).length → α) : α :=
  match h : peek cs pos with
  | some b => go b (lt_of_peek h)
  | none => stop

section

variable {cs} {α : Type} {pos : Nat} {stop : α} {go : Char → pos < (bytes cs).length → α}

theorem onByte_some {b : Char} (h : peek cs pos = some b) :
    onByte cs pos stop go = go b (lt_of_peek h) := by
  rw [onByte]
  split
  · next c hc =>
      obtain rfl : b = c := Option.some.inj (h.symm.trans hc)
      rfl
  · next hnone => cases h.symm.trans hnone

theorem onByte_none (h : peek cs pos = none) : onByte cs pos stop go = stop := by
  rw [onByte]
  split
  · next hsome => cases h.symm.trans hsome
  · rfl

end

/-- Goes on behind all bytes of a class. -/
def skipWhile (p : Char → Bool) (pos : Nat) : Nat :=
  onByte cs pos pos fun b _ => if p b then skipWhile p (pos + 1) else pos
termination_by (bytes cs).length - pos

/-- Goes on to the next start of a character, or the end of the text. -/
def settle (pos : Nat) : Option Nat :=
  if (cut? pos cs).isSome then some pos
  else if pos < (bytes cs).length then settle (pos + 1)
  else none
termination_by (bytes cs).length - pos

/-- The character that starts at an offset, if there is one. -/
def nextChar? (pos : Nat) : Option (Option Char) :=
  (cut? pos cs).map fun parts => parts.2.head?

/-- Reads a block comment behind its opening signs. -/
def blockComment (pos : Nat) : Nat :=
  onByte cs pos pos fun b _ =>
    if b = '*' ∧ peek cs (pos + 1) = some '/' then pos + 2 else blockComment (pos + 1)
termination_by (bytes cs).length - pos

/-- Reads the flags of a regular expression. Its last escape may reach past the text. -/
def regexFlags (pos : Nat) : Option Nat :=
  settle cs (min (skipWhile cs Char.isAlpha pos) (byteLength cs))

/-- Reads a regular expression behind its opening slash. -/
def regex (inClass : Bool) (pos : Nat) : Option Nat :=
  onByte cs pos (regexFlags cs pos) fun b _ =>
    if b = '\n' then some pos
    else if b = '\\' then regex inClass (pos + 2)
    else if b = '[' then regex true (pos + 1)
    else if b = ']' then regex false (pos + 1)
    else if b = '/' ∧ !inClass then regexFlags cs (pos + 1)
    else regex inClass (pos + 1)
termination_by (bytes cs).length - pos

/-- Reads a string behind its opening quote. `value` is what was read up to `start`. -/
def quoted (quote : Char) (value : List Char) (start pos : Nat) : Option (List Char × Nat) :=
  onByte cs pos ((slice? cs ⟨start, pos⟩).map fun run => (value ++ run, pos)) fun b _ =>
    if b = quote then (slice? cs ⟨start, pos⟩).map fun run => (value ++ run, pos + 1)
    else if b = '\n' then (slice? cs ⟨start, pos⟩).map fun run => (value ++ run, pos)
    else if b = '\\' then do
      let run ← slice? cs ⟨start, pos⟩
      match ← nextChar? cs (pos + 1) with
      | some c =>
          quoted quote (value ++ run ++ unescape c) (pos + 1 + c.utf8Size) (pos + 1 + c.utf8Size)
      | none => quoted quote (value ++ run) (pos + 1) (pos + 1)
    else quoted quote value start (pos + 1)
termination_by (bytes cs).length - pos

/-- Ends a template, whose last chunk runs to the end of the text. -/
def templateEnd (chunks : List (List Char)) (start : Nat) : Option (List (List Char) × Nat) := do
  let stop := byteLength cs
  let chunk ← slice? cs ⟨min start stop, stop⟩
  some (chunks ++ [chunk], stop)

mutual

/-- Reads a template behind its opening backtick. `chunks` are those in front of the one that
starts at `start`. -/
def template (chunks : List (List Char)) (start pos : Nat) : Option (List (List Char) × Nat) :=
  onByte cs pos (templateEnd cs chunks start) fun b _ =>
    if b = '\x60' then do
      let chunk ← slice? cs ⟨start, pos⟩
      some (chunks ++ [chunk], pos + 1)
    else if b = '\\' then template chunks start (pos + 2)
    else if b = '$' ∧ peek cs (pos + 1) = some '\x7b' then do
      let chunk ← slice? cs ⟨start, pos⟩
      let stop ← interpolation 1 (pos + 2)
      if pos < stop then template (chunks ++ [chunk]) stop stop else none
    else template chunks start (pos + 1)
termination_by (bytes cs).length - pos

/-- Reads the code of an interpolation up to and with its closing brace; `depth` counts the braces
that are open, its own included. Strings, templates and comments in it are taken whole. -/
def interpolation (depth : Nat) (pos : Nat) : Option Nat :=
  onByte cs pos (some pos) fun b _ =>
    if b = '\x7b' then interpolation (depth + 1) (pos + 1)
    else if b = '\x7d' then
      if depth - 1 = 0 then some (pos + 1) else interpolation (depth - 1) (pos + 1)
    else do
      let stop ←
        if b = '\'' ∨ b = '"' then (quoted cs b [] (pos + 1) (pos + 1)).map Prod.snd
        else if b = '\x60' then (template [] (pos + 1) (pos + 1)).map Prod.snd
        else if b = '/' ∧ peek cs (pos + 1) = some '/' then some (skipWhile cs (· != '\n') pos)
        else if b = '/' ∧ peek cs (pos + 1) = some '*' then some (blockComment cs (pos + 2))
        else some (pos + 1)
      if pos < stop then interpolation depth stop else none
termination_by (bytes cs).length - pos

end

/-- Reads a name from its first byte on. -/
def name (pos : Nat) : Option (List Char × Nat) :=
  let stop := skipWhile cs isNameChar pos
  (slice? cs ⟨pos, stop⟩).map fun name => (name, stop)

/-- Reads the lexeme at an offset, which holds the byte `b`, and gives its kind and its end. -/
def next (prior : Option TokenKind) (b : Char) (pos : Nat) : Option (Option TokenKind × Nat) :=
  if isSpace b then some (none, pos + 1)
  else if b = '/' ∧ peek cs (pos + 1) = some '/' then
    some (none, skipWhile cs (· != '\n') pos)
  else if b = '/' ∧ peek cs (pos + 1) = some '*' then
    some (none, blockComment cs (pos + 2))
  else if b = '/' ∧ TokenKind.opensRegex prior then
    (regex cs false (pos + 1)).map fun stop => (some .regex, stop)
  else if b = '\'' ∨ b = '"' then
    (quoted cs b [] (pos + 1) (pos + 1)).map fun (value, stop) =>
      (some (.str (String.ofList value)), stop)
  else if b = '\x60' then
    (template cs [] (pos + 1) (pos + 1)).map fun (chunks, stop) =>
      (some (.template (chunks.map String.ofList)), stop)
  else if b.isDigit then
    some (some .number, skipWhile cs isNumberChar pos)
  else if isNameChar b then
    (name cs pos).map fun (name, stop) => (some (.ident (String.ofList name)), stop)
  else some (some (.punct b), pos + 1)

/-- Reads all tokens from an offset on, behind those read so far. -/
def run (found : List Token) (pos : Nat) : Option (List Token) :=
  onByte cs pos (some found) fun b _ => do
    let (kind, stop) ← next cs (found.getLast?.map Token.kind) b pos
    if pos < stop then
      run (found ++ (kind.map fun kind => ⟨kind, ⟨pos, stop⟩⟩).toList) stop
    else none
termination_by (bytes cs).length - pos

end Source

end Cursor

/-- The tokens of a source, read by a byte offset. -/
def tokenizeBytes (source : String) : Option (List Token) := Cursor.run source.toList [] 0

end StyleBundler.Script
