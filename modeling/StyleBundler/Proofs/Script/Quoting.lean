import StyleBundler.Proofs.Import.Leading

/-!
Text in a quoted string. A backslash, a line break and the quote itself are escaped where they
stand, and what is read between the quotes is the text again (`quoted_escaped`). Only its own quote
ends the string, so that what follows it is not looked at, and white space in front of it does not
run into it (`tokenize_written`).
-/

namespace StyleBundler.Script

open Text Lexer

namespace StringLiteral

/-- How a character is written between such quotes. -/
def escape (quote c : Char) : List Char :=
  if c = '\\' ∨ c = quote then ['\\', c]
  else if c = '\n' then ['\\', 'n']
  else [c]

/-- A text between quotes. -/
def written (quote : Char) (s : String) : String :=
  String.ofList (quote :: (s.toList.flatMap (escape quote) ++ [quote]))

/-- What a text between quotes is read as, from byte `start` on. -/
def token (quote : Char) (s : String) (start : Nat) : Token :=
  ⟨.str s, ⟨start, start + byteLength (written quote s).toList⟩⟩

section

variable {quote : Char}

/-- Behind a backslash the signs that are escaped mean themselves. -/
theorem unescape_sign (hquote : quote = '\'' ∨ quote = '"') {c : Char}
    (h : c = '\\' ∨ c = quote) : unescape c = [c] := by
  rcases h with rfl | rfl
  · rfl
  · rcases hquote with rfl | rfl <;> rfl

/-- An escaped text is read up to the quote behind it, and gives the text. -/
theorem quoted_escaped (hquote : quote = '\'' ∨ quote = '"') (cs ds : List Char) :
    quoted quote (cs.flatMap (escape quote) ++ quote :: ds) =
      ⟨cs, cs.flatMap (escape quote) ++ [quote], ds⟩ := by
  have hback : '\\' ≠ quote := by rcases hquote with rfl | rfl <;> decide
  induction cs with
  | nil => exact quoted_close quote ds
  | cons c cs ih =>
      rw [List.flatMap_cons, List.append_assoc, escape]
      split
      · next hsign =>
          rw [List.cons_append, List.singleton_append, quoted_backslash hback, ih,
            unescape_sign hquote hsign]
          rfl
      · next hsign =>
          obtain ⟨hc, hq⟩ := not_or.mp hsign
          split
          · next hn =>
              rw [List.cons_append, List.singleton_append, quoted_backslash hback, ih, hn]
              rfl
          · next hn =>
              rw [List.singleton_append, quoted_other hq hn hc, ih]
              rfl

/-- A written text is one lexeme, behind any token and in front of any text. -/
theorem stands_written (hquote : quote = '\'' ∨ quote = '"') (prior : Option TokenKind)
    (s : String) (ds : List Char) : Stands prior ⟨some (.str s), (written quote s).toList⟩ ds := by
  have hread := quoted_escaped hquote s.toList ds
  rw [← List.singleton_append, ← List.append_assoc] at hread
  have hstands : Stands prior ⟨some (.str (String.ofList s.toList)), _⟩ ds :=
    (Reads.quoted hquote hread).stands
  rwa [String.ofList_toList, ← String.toList_ofList (l := quote :: _)] at hstands

/-- The token of a written text comes first, and the text behind it does not change it. -/
theorem place_written (hquote : quote = '\'' ∨ quote = '"') (prior : Option TokenKind)
    (s : String) (ds : List Char) :
    ∃ later, place 0 (lexemes prior ((written quote s).toList ++ ds)) = token quote s 0 :: later ∧
      (ds = [] → later = []) := by
  have hchain : Chain prior [⟨some (.str s), (written quote s).toList⟩] ds :=
    ⟨stands_written hquote prior s _, trivial⟩
  have hread := lexemes_chain hchain
  rw [spell_cons, spell_nil, List.append_nil] at hread
  rw [hread]
  refine ⟨_, rfl, ?_⟩
  rintro rfl
  rw [lexemes]
  rfl

theorem move_token (s : String) (n : Nat) :
    (token quote s 0).move (· + n) = token quote s n := by
  simp only [token, Token.move, Span.move, Nat.zero_add, Nat.add_comm n]

theorem endsName_written (hquote : quote = '\'' ∨ quote = '"') (s rest : String) :
    EndsName (written quote s ++ rest).toList := by
  intro d hd
  rw [String.toList_append, written, String.toList_ofList] at hd
  cases hd
  rcases hquote with rfl | rfl <;> rfl

end

theorem lexemes_spaces (prior : Option TokenKind) {cs : List Char}
    (h : ∀ c ∈ cs, isSpace c = true) : lexemes prior cs = cs.map fun c => ⟨none, [c]⟩ := by
  induction cs with
  | nil =>
      rw [lexemes]
      rfl
  | cons c cs ih =>
      have hnext : next prior c cs = ⟨none, [c], cs⟩ := by
        rw [next, if_pos (h c List.mem_cons_self)]
      rw [lexemes]
      simp only [hnext, Option.none_or, ih fun d hd => h d (List.mem_cons_of_mem c hd),
        List.map_cons]

/-- White space that the scanner knows makes no tokens. -/
theorem tokenize_spaces {w : String} (h : ∀ c ∈ w.toList, isSpace c = true) : tokenize w = [] := by
  rw [← List.map_eq_nil_iff (f := Token.kind), tokenize, map_kind_place, lexemes_spaces none h]
  simp

/-- The source is read as these tokens, by its characters and by its bytes. -/
def ReadAs (source : String) (ts : List Token) : Prop :=
  tokenize source = ts ∧ tokenizeBytes source = some ts

theorem readAs_of_tokenize {source : String} {ts : List Token} (h : tokenize source = ts) :
    ReadAs source ts := ⟨h, h ▸ tokenizeBytes_eq source⟩

/-- A text between quotes is one string token that spans them and has the text as its value. Behind
any white space and in front of any text this token is read as well, where the text between quotes
then starts. In front of it no string is read; nothing at all is, if the scanner knows the white
space as such. -/
theorem tokenize_written {quote : Char} (hquote : quote = '\'' ∨ quote = '"') (s : String) :
    ReadAs (written quote s) [token quote s 0] ∧
      ∀ w rest : String, IsWhite w.toList →
        ∃ earlier later,
          ReadAs (w ++ written quote s ++ rest)
            (earlier ++ token quote s (byteLength w.toList) :: later) ∧
          (∀ t ∈ earlier, IsForeign t.kind) ∧
          ((∀ c ∈ w.toList, isSpace c = true) → earlier = []) := by
  constructor
  · obtain ⟨later, hread, hlater⟩ := place_written hquote none s []
    rw [hlater rfl, List.append_nil] at hread
    exact readAs_of_tokenize hread
  · intro w rest hw
    obtain ⟨later, hplace, -⟩ :=
      place_written hquote (lastKind none (lexemes none w.toList)) s rest.toList
    -- White space can end in a name, but a quote does not go on with it.
    have hread := tokenize_spacing hw fun _ => endsName_written hquote s rest
    rw [String.toList_append, hplace, List.map_cons, move_token, ← String.append_assoc] at hread
    exact ⟨tokenize w, _, readAs_of_tokenize hread, isForeign_tokenize hw, tokenize_spaces⟩

theorem tokenize_written_mixed :
    written '\'' "it's \\\né" = "'it\\'s \\\\\\né'" ∧ IsWhite "\u00A0\n".toList ∧
      ∃ earlier later, ReadAs ("\u00A0\n" ++ written '\'' "it's \\\né" ++ "/' */")
        (earlier ++ ⟨.str "it's \\\né", ⟨3, 17⟩⟩ :: later) := by
  have hwhite : IsWhite "\u00A0\n".toList := by decide
  have hspan : token '\'' "it's \\\né" (byteLength "\u00A0\n".toList) =
      ⟨.str "it's \\\né", ⟨3, 17⟩⟩ := by decide +kernel
  refine ⟨by decide +kernel, hwhite, ?_⟩
  obtain ⟨earlier, later, hread, -⟩ :=
    (tokenize_written (.inl rfl) "it's \\\né").2 "\u00A0\n" "/' */" hwhite
  exact ⟨earlier, later, hspan ▸ hread⟩

end StringLiteral
end StyleBundler.Script
