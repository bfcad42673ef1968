import StyleBundler.Script.Token

/-!
Cutting a script into lexemes. A lexeme is a token, a comment or a white space
character; put together in order the lexemes are the text again
(`flatMap_text_lexemes`), so nothing is lost and nothing is read twice. No text is
refused: a string that is not closed ends before the next line, a template, a
comment or a regular expression that is not closed ends with the text.
-/

namespace StyleBundler.Script

open Text

/-- What a scanner read: a value, the characters it took and those it left. -/
structure Scan (α : Type) where
  value : α
  text : List Char
  rest : List Char

/-- A stretch of the text; `none` marks white space and comments. -/
structure Lexeme where
  kind : Option TokenKind
  text : List Char
deriving DecidableEq, Repr

namespace Lexer

def isSpace (c : Char) : Bool :=
  c == ' ' || c == '\t' || c == '\n' || c == '\r' || c == '\x0c'

/-- Every character outside ASCII counts as part of a name. -/
def isNameChar (c : Char) : Bool :=
  c.isAlphanum || c == '_' || c == '$' || 0x80 ≤ c.toNat

def isNumberChar (c : Char) : Bool :=
  c.isAlphanum || c == '.' || c == '_'

/-- What a backslash and the character after it stand for in a string. -/
def unescape (c : Char) : List Char :=
  if c == 'n' then ['\n']
  else if c == 't' then ['\t']
  else if c == 'r' then ['\r']
  else if c == '0' then ['\x00']
  else if c == '\n' then []
  else [c]

/-- Reads a string after its opening quote. -/
def quoted (quote : Char) : List Char → Scan (List Char)
  | [] => ⟨[], [], []⟩
  | c :: cs =>
      if c = quote then ⟨[], [c], cs⟩
      else if c = '\n' then ⟨[], [], c :: cs⟩
      else if c = '\\' then
        match cs with
        | [] => ⟨[], [c], []⟩
        | e :: cs =>
            let s := quoted quote cs
            ⟨unescape e ++ s.value, c :: e :: s.text, s.rest⟩
      else
        let s := quoted quote cs
        ⟨c :: s.value, c :: s.text, s.rest⟩

/-- Reads a comment up to the end of its line, which stays. -/
def lineComment (cs : List Char) : Scan Unit :=
  ⟨(), cs.takeWhile (· != '\n'), cs.dropWhile (· != '\n')⟩

/-- Reads a block comment after its opening signs. -/
def blockComment : List Char → Scan Unit
  | [] => ⟨(), [], []⟩
  | '*' :: '/' :: cs => ⟨(), ['*', '/'], cs⟩
  | c :: cs =>
      let s := blockComment cs
      ⟨(), c :: s.text, s.rest⟩

/-- Reads a regular expression after its opening slash. A slash inside a character
class does not close it, and flags follow only a closed one. -/
def regex (inClass : Bool) : List Char → Scan Unit
  | [] => ⟨(), [], []⟩
  | c :: cs =>
      if c = '\n' then ⟨(), [], c :: cs⟩
      else if c = '\\' then
        match cs with
        | [] => ⟨(), [c], []⟩
        | e :: cs =>
            let s := regex inClass cs
            ⟨(), c :: e :: s.text, s.rest⟩
      else if c = '/' && !inClass then
        ⟨(), c :: cs.takeWhile Char.isAlpha, cs.dropWhile Char.isAlpha⟩
      else
        let s := regex (if c = '[' then true else if c = ']' then false else inClass) cs
        ⟨(), c :: s.text, s.rest⟩

/-- The text `cs` falls into what was taken and what is left. -/
def Splits (cs taken left : List Char) : Prop := taken ++ left = cs

theorem quoted_splits (quote : Char) (cs : List Char) :
    Splits cs (quoted quote cs).text (quoted quote cs).rest := by
  fun_induction quoted quote cs <;> simp_all +zetaDelta [Splits]

theorem lineComment_splits (cs : List Char) :
    Splits cs (lineComment cs).text (lineComment cs).rest := by
  simp [Splits, lineComment]

theorem blockComment_splits (cs : List Char) :
    Splits cs (blockComment cs).text (blockComment cs).rest := by
  fun_induction blockComment cs <;> simp_all +zetaDelta [Splits]

theorem regex_splits (inClass : Bool) (cs : List Char) :
    Splits cs (regex inClass cs).text (regex inClass cs).rest := by
  fun_induction regex inClass cs <;> simp_all +zetaDelta [Splits]

theorem Splits.length_left_le {cs taken left : List Char} (h : Splits cs taken left) :
    left.length ≤ cs.length := by
  have := congrArg List.length h
  simp at this
  omega

theorem Splits.cons {cs taken left : List Char} {c : Char} (h : Splits cs taken left) :
    Splits (c :: cs) (c :: taken) left :=
  congrArg (c :: ·) h

/-- Splitting what was left splits the whole. -/
theorem Splits.append {cs taken left taken' left' : List Char} (h : Splits cs taken left)
    (h' : Splits left taken' left') : Splits cs (taken ++ taken') left' := by
  simp only [Splits] at h h' ⊢
  rw [List.append_assoc, h', h]

/-- Adds a character to the first chunk. -/
def pushChunk (c : Char) : List (List Char) → List (List Char)
  | [] => [[c]]
  | chunk :: chunks => (c :: chunk) :: chunks

mutual

/-- Reads a template after its opening backtick, giving its static chunks. -/
def template : (cs : List Char) → { s : Scan (List (List Char)) // Splits cs s.text s.rest }
  | [] => ⟨⟨[[]], [], []⟩, rfl⟩
  | '\x60' :: cs => ⟨⟨[[]], ['\x60'], cs⟩, rfl⟩
  | ['\\'] => ⟨⟨[['\\']], ['\\'], []⟩, rfl⟩
  | '\\' :: c :: cs =>
      let ⟨s, hs⟩ := template cs
      ⟨⟨pushChunk '\\' (pushChunk c s.value), '\\' :: c :: s.text, s.rest⟩, hs.cons.cons⟩
  | '$' :: '{' :: cs =>
      let ⟨code, hcode⟩ := interpolation 0 cs
      have : code.rest.length ≤ cs.length := hcode.length_left_le
      let ⟨s, hs⟩ := template code.rest
      ⟨⟨[] :: s.value, '$' :: '{' :: (code.text ++ s.text), s.rest⟩,
        (hcode.append hs).cons.cons⟩
  | c :: cs =>
      let ⟨s, hs⟩ := template cs
      ⟨⟨pushChunk c s.value, c :: s.text, s.rest⟩, hs.cons⟩
termination_by cs => cs.length

/-- Reads the code of an interpolation up to and with its closing brace; `depth`
counts the braces that code opened. Strings, comments and templates in it are
taken whole. -/
def interpolation (depth : Nat) : (cs : List Char) → { s : Scan Unit // Splits cs s.text s.rest }
  | [] => ⟨⟨(), [], []⟩, rfl⟩
  | '{' :: cs =>
      let ⟨s, hs⟩ := interpolation (depth + 1) cs
      ⟨⟨(), '{' :: s.text, s.rest⟩, hs.cons⟩
  | '}' :: cs =>
      match depth with
      | 0 => ⟨⟨(), ['}'], cs⟩, rfl⟩
      | depth + 1 =>
          let ⟨s, hs⟩ := interpolation depth cs
          ⟨⟨(), '}' :: s.text, s.rest⟩, hs.cons⟩
  | '/' :: '/' :: cs =>
      have hl := lineComment_splits cs
      have : (lineComment cs).rest.length ≤ cs.length := hl.length_left_le
      let ⟨s, hs⟩ := interpolation depth (lineComment cs).rest
      ⟨⟨(), '/' :: '/' :: ((lineComment cs).text ++ s.text), s.rest⟩,
        (hl.append hs).cons.cons⟩
  | '/' :: '*' :: cs =>
      have hl := blockComment_splits cs
      have : (blockComment cs).rest.length ≤ cs.length := hl.length_left_le
      let ⟨s, hs⟩ := interpolation depth (blockComment cs).rest
      ⟨⟨(), '/' :: '*' :: ((blockComment cs).text ++ s.text), s.rest⟩,
        (hl.append hs).cons.cons⟩
  | '\x60' :: cs =>
      let ⟨inner, hinner⟩ := template cs
      have : inner.rest.length ≤ cs.length := hinner.length_left_le
      let ⟨s, hs⟩ := interpolation depth inner.rest
      ⟨⟨(), '\x60' :: (inner.text ++ s.text), s.rest⟩, (hinner.append hs).cons⟩
  | c :: cs =>
      if c = '\'' ∨ c = '"' then
        have hq := quoted_splits c cs
        have : (quoted c cs).rest.length ≤ cs.length := hq.length_left_le
        let ⟨s, hs⟩ := interpolation depth (quoted c cs).rest
        ⟨⟨(), c :: ((quoted c cs).text ++ s.text), s.rest⟩, (hq.append hs).cons⟩
      else
        let ⟨s, hs⟩ := interpolation depth cs
        ⟨⟨(), c :: s.text, s.rest⟩, hs.cons⟩
termination_by cs => cs.length

end

/-- Puts one more character in front of what a scanner took. -/
def Scan.lead {α β : Type} (c : Char) (f : α → β) (s : Scan α) : Scan β :=
  ⟨f s.value, c :: s.text, s.rest⟩

/-- Reads the lexeme that starts with `c`, where `prior` is the last token before
it. -/
def next (prior : Option TokenKind) (c : Char) (cs : List Char) : Scan (Option TokenKind) :=
  if isSpace c then ⟨none, [c], cs⟩
  else if c = '/' ∧ cs.head? = some '/' then
    Scan.lead c (fun _ => none) (lineComment cs)
  else if c = '/' ∧ cs.head? = some '*' then
    Scan.lead c (fun _ => none) (Scan.lead '*' id (blockComment cs.tail))
  else if c = '/' ∧ TokenKind.opensRegex prior then
    Scan.lead c (fun _ => some .regex) (regex false cs)
  else if c = '\'' ∨ c = '"' then
    Scan.lead c (fun value => some (.str (String.ofList value))) (quoted c cs)
  else if c = '\x60' then
    Scan.lead c (fun chunks => some (.template (chunks.map String.ofList))) (template cs).1
  else if c.isDigit then
    ⟨some .number, c :: cs.takeWhile isNumberChar, cs.dropWhile isNumberChar⟩
  else if isNameChar c then
    ⟨some (.ident (String.ofList (c :: cs.takeWhile isNameChar))),
      c :: cs.takeWhile isNameChar, cs.dropWhile isNameChar⟩
  else ⟨some (.punct c), [c], cs⟩

theorem next_splits (prior : Option TokenKind) (c : Char) (cs : List Char) :
    Splits (c :: cs) (next prior c cs).text (next prior c cs).rest := by
  have hq := quoted_splits c cs
  have hl := lineComment_splits cs
  have hb := blockComment_splits cs.tail
  have hr := regex_splits false cs
  have ht := (template cs).2
  simp only [Splits] at hq hl hb hr ht
  unfold next
  repeat' split
  all_goals simp_all [Splits, Scan.lead]
  · rename_i h
    cases cs with
    | nil => simp at h
    | cons d cs => simp_all

theorem length_rest_next_le (prior : Option TokenKind) (c : Char) (cs : List Char) :
    (next prior c cs).rest.length ≤ cs.length := by
  have h := congrArg List.length (next_splits prior c cs)
  have hne : (next prior c cs).text ≠ [] := by
    unfold next
    repeat' split
    all_goals simp [Scan.lead]
  have := List.length_pos_iff.2 hne
  simp at h
  omega

end Lexer

open Lexer

/-- The lexemes of a text that follows the token `prior`. -/
def lexemes (prior : Option TokenKind) : List Char → List Lexeme
  | [] => []
  | c :: cs =>
      have : (next prior c cs).rest.length ≤ cs.length := length_rest_next_le prior c cs
      ⟨(next prior c cs).value, (next prior c cs).text⟩ ::
        lexemes ((next prior c cs).value.or prior) (next prior c cs).rest
termination_by cs => cs.length

/-- The lexemes are the text, in order. -/
theorem flatMap_text_lexemes (prior : Option TokenKind) (cs : List Char) :
    (lexemes prior cs).flatMap Lexeme.text = cs := by
  fun_induction lexemes prior cs with
  | case1 => rfl
  | case2 prior c cs _ ih =>
      rw [List.flatMap_cons, ih]
      exact next_splits prior c cs

/-- The tokens among lexemes that start at byte `pos`. -/
def place (pos : Nat) : List Lexeme → List Token
  | [] => []
  | l :: ls =>
      let stop := pos + byteLength l.text
      match l.kind with
      | some kind => ⟨kind, ⟨pos, stop⟩⟩ :: place stop ls
      | none => place stop ls

def tokenize (source : String) : List Token := place 0 (lexemes none source.toList)

end StyleBundler.Script
