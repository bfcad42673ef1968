import StyleBundler.Proofs.Script.Relexing

/-!
Lexemes that a text is read as. Whether a lexeme stands where it does is decided by the token
in front of it and the text behind it (`Stands`), so a text put together from lexemes is read as
these if each of them stands (`lexemes_chain`). In front of a letter only a whole lexeme
stands, which then stands in front of any text, but for a slash that would open a comment
(`Stands.of_letter`).
-/

namespace StyleBundler.Script

open Lexer

/-- The text that lexemes spell. -/
def spell (ls : List Lexeme) : List Char := ls.flatMap Lexeme.text

@[simp] theorem spell_nil : spell [] = [] := rfl

@[simp] theorem spell_cons (l : Lexeme) (ls : List Lexeme) : spell (l :: ls) = l.text ++ spell ls :=
  rfl

@[simp] theorem spell_append (a b : List Lexeme) : spell (a ++ b) = spell a ++ spell b :=
  List.flatMap_append

theorem spell_lexemes (prior : Option TokenKind) (cs : List Char) :
    spell (lexemes prior cs) = cs := flatMap_text_lexemes prior cs

/-- The lexeme is read behind the token `prior` and in front of the text `ds`. -/
def Stands (prior : Option TokenKind) (l : Lexeme) (ds : List Char) : Prop :=
  ∃ c cs, l.text = c :: cs ∧ next prior c (cs ++ ds) = ⟨l.kind, l.text, ds⟩

/-- The token in front, once these lexemes are read. -/
def lastKind (prior : Option TokenKind) (ls : List Lexeme) : Option TokenKind :=
  ls.foldl (fun prior l => l.kind.or prior) prior

/-- Each lexeme stands where it does, the last one in front of `ds`. -/
def Chain (prior : Option TokenKind) : List Lexeme → List Char → Prop
  | [], _ => True
  | l :: ls, ds => Stands prior l (spell ls ++ ds) ∧ Chain (l.kind.or prior) ls ds

theorem Chain.append {prior : Option TokenKind} {a b : List Lexeme} {ds : List Char}
    (ha : Chain prior a (spell b ++ ds)) (hb : Chain (lastKind prior a) b ds) :
    Chain prior (a ++ b) ds := by
  induction a generalizing prior with
  | nil => exact hb
  | cons l a ih =>
      have hspell : spell (a ++ b) ++ ds = spell a ++ (spell b ++ ds) := by
        rw [spell_append, List.append_assoc]
      exact ⟨hspell ▸ ha.1, ih ha.2 hb⟩

/-- A chain of lexemes is what its text is read as. -/
theorem lexemes_chain {prior : Option TokenKind} {ls : List Lexeme} {ds : List Char}
    (h : Chain prior ls ds) :
    lexemes prior (spell ls ++ ds) = ls ++ lexemes (lastKind prior ls) ds := by
  induction ls generalizing prior with
  | nil => rfl
  | cons l ls ih =>
      obtain ⟨⟨c, cs, htext, hnext⟩, hls⟩ := h
      rw [spell_cons, htext, List.append_assoc, List.cons_append, lexemes]
      simp only [hnext, ih hls]
      rfl

theorem chain_lexemes (prior : Option TokenKind) (cs : List Char) :
    Chain prior (lexemes prior cs) [] := by
  fun_induction lexemes prior cs with
  | case1 => trivial
  | case2 prior c cs _ ih =>
      have hsplit := next_splits prior c cs
      obtain ⟨taken, htext⟩ := (reads_next prior c cs).exists_text
      rw [Splits, htext] at hsplit
      have hcs : taken ++ (next prior c cs).rest = cs := (List.cons.inj hsplit).2
      refine ⟨⟨c, taken, htext, ?_⟩, ih⟩
      rw [spell, flatMap_text_lexemes, List.append_nil, hcs]

section Stands

variable {prior prior' : Option TokenKind} {l : Lexeme} {ds ds' : List Char}

theorem stands_iff :
    Stands prior l ds ↔
      ∃ c cs, l.text = c :: cs ∧ Reads prior c (cs ++ ds) ⟨l.kind, l.text, ds⟩ := by
  simp only [Stands, reads_iff]

theorem Lexer.Reads.stands {kind : Option TokenKind} {c : Char} {cs : List Char}
    (h : Reads prior c (cs ++ ds) ⟨kind, c :: cs, ds⟩) : Stands prior ⟨kind, c :: cs⟩ ds :=
  ⟨c, cs, rfl, h.next_eq⟩

/-- Behind another token a lexeme stands as well, if a slash or a regular expression does. -/
theorem Stands.of_opens (h : Stands prior l ds)
    (hregex : l.kind = some .regex → TokenKind.opensRegex prior' = true)
    (hslash : l.kind = some (.punct '/') → TokenKind.opensRegex prior' = false) :
    Stands prior' l ds := by
  obtain ⟨c, cs, htext, hread⟩ := stands_iff.mp h
  exact stands_iff.mpr ⟨c, cs, htext, hread.of_prior hregex hslash⟩

/-- What stands in front matters only for a slash. -/
theorem Stands.of_prior (h : Stands prior l ds)
    (hprior : TokenKind.opensRegex prior' = TokenKind.opensRegex prior ∨
      TokenKind.opensRegex prior = true ∧ l.kind ≠ some .regex) : Stands prior' l ds := by
  obtain ⟨c, cs, -, hread⟩ := stands_iff.mp h
  obtain ⟨hregex, hslash⟩ := hread.opensRegex
  rcases hprior with hprior | ⟨hprior, hkind⟩
  · rw [← hprior] at hregex hslash
    exact h.of_opens hregex hslash
  · rw [hprior] at hslash
    exact h.of_opens (fun hkind' => absurd hkind' hkind) fun hkind' => nomatch hslash hkind'

/-- A lexeme stands in front of any text that starts as the one behind it. -/
theorem Stands.of_sameStart (h : Stands prior l ds) (hstart : SameStart ds ds') :
    Stands prior l ds' := by
  obtain ⟨c, cs, htext, hread⟩ := stands_iff.mp h
  have hprior : TokenKind.opensRegex prior = TokenKind.opensRegex prior := rfl
  obtain ⟨taken, htaken, hagain⟩ := hread.append hprior hstart
  obtain rfl : cs = taken := (List.cons.inj (htext.symm.trans htaken)).2
  exact stands_iff.mpr ⟨c, cs, htext, hagain⟩

end Stands

namespace Lexer

theorem quoted_closed {quote : Char} {cs : List Char} {d : Char}
    (h : (quoted quote cs).rest.head? = some d) (hd : d ≠ '\n') (ds : List Char) :
    quoted quote ((quoted quote cs).text ++ ds) =
      ⟨(quoted quote cs).value, (quoted quote cs).text, ds⟩ := by
  fun_induction quoted quote cs with
  | case1 => cases h
  | case2 cs => exact quoted_close quote ds
  | case3 cs hc => exact absurd (Option.some.inj h).symm hd
  | case4 hc hn => cases h
  | case5 e cs s hc hn ih =>
      simp only [List.cons_append, quoted, hc, hn, if_false, if_true]
      rw [ih h]
  | case6 c cs hc hn hb s ih => rw [List.cons_append, quoted_other hc hn hb, ih h]

theorem text_blockComment_ne_nil {cs : List Char} (h : (blockComment cs).rest ≠ []) :
    (blockComment cs).text ≠ [] := by
  unfold blockComment at h ⊢
  split at h <;> simp_all

theorem blockComment_closed {cs : List Char} (h : (blockComment cs).rest ≠ []) (ds : List Char) :
    blockComment ((blockComment cs).text ++ ds) = ⟨(), (blockComment cs).text, ds⟩ := by
  fun_induction blockComment cs with
  | case1 => exact absurd rfl h
  | case2 cs => rfl
  | case3 c cs hc s ih =>
      have hstart := sameStart_taken (blockComment_splits cs) (text_blockComment_ne_nil h) ds
      have hother : ¬(c = '*' ∧ ((blockComment cs).text ++ ds).head? = some '/') := by
        rintro ⟨rfl, hhead⟩
        rw [hstart.head?_iff (by decide)] at hhead
        obtain ⟨rest, rfl⟩ := List.head?_eq_some_iff.mp hhead
        exact hc rest rfl rfl
      rw [List.cons_append, blockComment_other hother, ih h]

/-- A regular expression ends with the text, at a new line or behind its flags. -/
theorem regex_rest {inClass : Bool} {cs : List Char} {d : Char}
    (h : (regex inClass cs).rest.head? = some d) : d.isAlpha = false := by
  fun_induction regex inClass cs with
  | case1 => cases h
  | case2 inClass cs => exact Option.some.inj h ▸ rfl
  | case3 inClass hn => cases h
  | case4 inClass e cs s hn ih => exact ih h
  | case5 inClass c cs hn hb hs =>
      have := List.head?_dropWhile_not Char.isAlpha cs
      rw [h] at this
      simpa using this
  | case6 inClass c cs hn hb hs s ih => exact ih h

theorem isNameChar_of_isAlpha {c : Char} (h : c.isAlpha = true) : isNameChar c = true := by
  simp [isNameChar, Char.isAlphanum, h]

theorem isNumberChar_of_isAlpha {c : Char} (h : c.isAlpha = true) : isNumberChar c = true := by
  simp [isNumberChar, Char.isAlphanum, h]

/-- What is read in front of a letter is read in front of any text, unless it is a slash that makes
a comment with what follows. -/
theorem Reads.of_letter {prior kind : Option TokenKind} {c d : Char} {cs rest ds : List Char}
    (h : Reads prior c (cs ++ d :: rest) ⟨kind, c :: cs, d :: rest⟩) (hd : d.isAlpha = true)
    (hslash : kind = some (.punct '/') → ds.head? ≠ some '/' ∧ ds.head? ≠ some '*') :
    Reads prior c (cs ++ ds) ⟨kind, c :: cs, ds⟩ := by
  have hnewline : d ≠ '\n' := by
    rintro rfl
    cases hd
  generalize hxs : cs ++ d :: rest = xs at h
  cases h with
  | space hc => exact .space hc ds
  | line _ hrest => exact absurd (hrest d rfl) hnewline
  | block h =>
      obtain rfl := (List.cons.inj hxs).2
      have hclosed := blockComment_closed (by rw [h]; exact List.cons_ne_nil d rest) ds
      rw [h] at hclosed
      exact .block hclosed
  | regex _ _ h =>
      have hstop := regex_rest (congrArg (List.head? ∘ Scan.rest) h)
      rw [hd] at hstop
      cases hstop
  | slash _ hprior => exact .slash (hslash rfl) hprior
  | quoted hc h =>
      have hclosed := quoted_closed (congrArg (List.head? ∘ Scan.rest) h) hnewline ds
      rw [h] at hclosed
      exact .quoted hc hclosed
  | template h =>
      have hclosed := readTemplate_closed (by rw [h]; exact List.cons_ne_nil d rest) ds
      rw [h] at hclosed
      exact .template hclosed
  | number _ _ hrest =>
      have hstop := hrest d rfl
      rw [isNumberChar_of_isAlpha hd] at hstop
      cases hstop
  | name _ _ hrest =>
      have hstop := hrest d rfl
      rw [isNameChar_of_isAlpha hd] at hstop
      cases hstop
  | sign hc => exact .sign hc ds

end Lexer

/-- A name starts with a character of names other than a digit, and has no other characters. -/
def IsName (cs : List Char) : Prop :=
  ∃ c rest, cs = c :: rest ∧ c.isDigit = false ∧ ∀ d ∈ cs, isNameChar d = true

theorem isName_iff {cs : List Char} :
    IsName cs ↔ cs.head?.any (fun c => !c.isDigit) = true ∧ cs.all isNameChar = true := by
  cases cs with
  | nil => exact ⟨fun ⟨_, _, h, _⟩ => absurd h nofun, fun h => absurd h.1 nofun⟩
  | cons c rest => simp [IsName]

instance (cs : List Char) : Decidable (IsName cs) := decidable_of_iff _ isName_iff.symm

/-- What stands in front of a letter stands in front of any text, unless it is a slash that makes
a comment with what follows. -/
theorem Stands.of_letter {prior : Option TokenKind} {l : Lexeme} {d : Char} {rest ds : List Char}
    (h : Stands prior l (d :: rest)) (hd : d.isAlpha = true)
    (hslash : l.kind = some (.punct '/') → ds.head? ≠ some '/' ∧ ds.head? ≠ some '*') :
    Stands prior l ds := by
  obtain ⟨c, cs, htext, hread⟩ := stands_iff.mp h
  rw [htext] at hread
  refine stands_iff.mpr ⟨c, cs, htext, ?_⟩
  rw [htext]
  exact hread.of_letter hd hslash

/-- The first token among lexemes. -/
def firstKind? (ls : List Lexeme) : Option TokenKind := ls.findSome? Lexeme.kind

@[simp] theorem firstKind?_nil : firstKind? [] = none := rfl

@[simp] theorem firstKind?_cons (l : Lexeme) (ls : List Lexeme) :
    firstKind? (l :: ls) = l.kind.or (firstKind? ls) := by
  rw [firstKind?, List.findSome?_cons]
  cases l.kind <;> rfl

@[simp] theorem firstKind?_append (a b : List Lexeme) :
    firstKind? (a ++ b) = (firstKind? a).or (firstKind? b) := List.findSome?_append

@[simp] theorem lastKind_nil (prior : Option TokenKind) : lastKind prior [] = prior := rfl

@[simp] theorem lastKind_cons (prior : Option TokenKind) (l : Lexeme) (ls : List Lexeme) :
    lastKind prior (l :: ls) = lastKind (l.kind.or prior) ls := rfl

@[simp] theorem lastKind_append (prior : Option TokenKind) (a b : List Lexeme) :
    lastKind prior (a ++ b) = lastKind (lastKind prior a) b := List.foldl_append

/-- Behind `prior'` the text that starts with the token `next` is read as behind `prior`: a slash
opens a regular expression behind both or behind neither, or there is none that has to be told
from a division. -/
def Synced (prior prior' next : Option TokenKind) : Prop :=
  TokenKind.opensRegex prior' = TokenKind.opensRegex prior ∨
    TokenKind.opensRegex prior = true ∧ next ≠ some .regex

namespace Synced

variable {prior prior' : Option TokenKind}

theorem cons {l : Lexeme} {ls : List Lexeme} (h : Synced prior prior' (firstKind? (l :: ls))) :
    Synced (l.kind.or prior) (l.kind.or prior') (firstKind? ls) := by
  rw [firstKind?_cons] at h
  cases hkind : l.kind with
  | none => rwa [hkind] at h
  | some kind => exact .inl rfl

theorem of_append {a b : List Lexeme} (h : Synced prior prior' (firstKind? (a ++ b))) :
    Synced prior prior' (firstKind? a) := by
  refine h.imp id fun ⟨hopens, hnext⟩ => ⟨hopens, ?_⟩
  intro hregex
  rw [firstKind?_append, hregex] at hnext
  exact hnext rfl

end Synced

/-- A chain stands behind another token and in front of another text, if its last lexeme stands
in front of that text. -/
theorem Chain.of_synced {prior prior' : Option TokenKind} {ls : List Lexeme}
    {ds ds' : List Char} (h : Chain prior ls ds) (hprior : Synced prior prior' (firstKind? ls))
    (hlast : ∀ prior l, ls.getLast? = some l → Stands prior l ds → Stands prior l ds') :
    Chain prior' ls ds' := by
  induction ls generalizing prior prior' with
  | nil => trivial
  | cons l ls ih =>
      have hl : Stands prior' l (spell ls ++ ds) := by
        refine h.1.of_prior (hprior.imp id fun ⟨hopens, hnext⟩ => ⟨hopens, ?_⟩)
        intro hregex
        rw [firstKind?_cons, hregex] at hnext
        exact hnext rfl
      cases ls with
      | nil => exact ⟨hlast _ l rfl hl, trivial⟩
      | cons m ls =>
          obtain ⟨c, cs, htext, -⟩ := h.2.1
          refine ⟨hl.of_sameStart ?_, ih h.2 hprior.cons ?_⟩
          · rw [spell_cons, htext]
            exact .head c _ _
          · intro prior l hl
            exact hlast prior l (by rwa [List.getLast?_cons_cons])

/-- A text is read alike behind tokens that make no difference to it. -/
theorem lexemes_synced {prior prior' : Option TokenKind} {cs : List Char}
    (h : Synced prior prior' (firstKind? (lexemes prior cs))) :
    lexemes prior' cs = lexemes prior cs := by
  have hchain := (chain_lexemes prior cs).of_synced h fun _ _ _ h => h
  have hread := lexemes_chain hchain
  rwa [List.append_nil, spell_lexemes, lexemes, List.append_nil] at hread

theorem Chain.of_append {prior : Option TokenKind} {a b : List Lexeme} {ds : List Char}
    (h : Chain prior (a ++ b) ds) :
    Chain prior a (spell b ++ ds) ∧ Chain (lastKind prior a) b ds := by
  induction a generalizing prior with
  | nil => exact ⟨trivial, h⟩
  | cons l a ih =>
      have hspell : spell (a ++ b) ++ ds = spell a ++ (spell b ++ ds) := by
        rw [spell_append, List.append_assoc]
      obtain ⟨ha, hb⟩ := ih h.2
      exact ⟨⟨hspell ▸ h.1, ha⟩, hb⟩

theorem stands_name (prior : Option TokenKind) {name : String} (h : IsName name.toList)
    {ds : List Char} (hds : ∀ d, ds.head? = some d → isNameChar d = false) :
    Stands prior ⟨some (.ident name), name.toList⟩ ds := by
  obtain ⟨c, cs, hname, hdigit, hall⟩ := h
  rw [hname] at hall
  have hread : Reads prior c (cs ++ ds)
      ⟨some (.ident (String.ofList (c :: cs))), c :: cs, ds⟩ := .name hdigit hall hds
  rw [← hname, String.ofList_toList, hname] at hread
  exact hname ▸ hread.stands

theorem stands_sign (prior : Option TokenKind) {c : Char} (h : isSign c = true) (ds : List Char) :
    Stands prior ⟨some (.punct c), [c]⟩ ds := (Reads.sign h ds).stands

theorem stands_blank (prior : Option TokenKind) {c : Char} (h : isSpace c = true)
    (ds : List Char) : Stands prior ⟨none, [c]⟩ ds := (Reads.space h ds).stands

theorem stands_unescaped (prior : Option TokenKind) {quote : Char} {value : String}
    (hquote : quote = '\'' ∨ quote = '"') (h : value.toList.all (isUnescaped quote) = true)
    (ds : List Char) :
    Stands prior ⟨some (.str value), quote :: (value.toList ++ [quote])⟩ ds := by
  refine ⟨quote, value.toList ++ [quote], rfl, ?_⟩
  rw [List.append_assoc, List.singleton_append, next_unescaped prior hquote h ds,
    String.ofList_toList]

theorem stands_plain (prior : Option TokenKind) {value : String}
    (h : value.toList.all isPlain = true) (ds : List Char) :
    Stands prior ⟨some (.str value), '\'' :: (value.toList ++ ['\''])⟩ ds :=
  stands_unescaped prior (.inl rfl) h ds

end StyleBundler.Script
