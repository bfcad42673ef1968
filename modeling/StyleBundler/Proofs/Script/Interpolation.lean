import Mathlib.Data.List.Infix
import StyleBundler.Proofs.Script.Chain
import StyleBundler.Proofs.Script.Placing

/-!
The two readings of code. The code of an interpolation is passed over up to its closing brace by a
scanner that does not tell tokens apart, and the same code is cut into lexemes when it stands alone.
Each lexeme is passed over as a whole (`Stands.passesOver`), but for a regular expression: its signs
are passed over one by one, as if they were code. Where that makes no difference, an interpolation
ends where its code does (`tokenize_interpolated`).
-/

namespace StyleBundler.Script

open Lexer Text

/-- How deep in braces a text leads; nothing if it closes one that is not open. -/
def braceDepth? (depth : Nat) : List Char → Option Nat
  | [] => some depth
  | c :: cs =>
      if c = '{' then braceDepth? (depth + 1) cs
      else if c = '}' then
        if depth = 0 then none else braceDepth? (depth - 1) cs
      else braceDepth? depth cs

/-- Each brace is closed, and none that is not open. -/
def Balanced (cs : List Char) : Prop := braceDepth? 0 cs = some 0

instance (cs : List Char) : Decidable (Balanced cs) := inferInstanceAs (Decidable (_ = _))

theorem braceDepth?_append (depth : Nat) (a b : List Char) :
    braceDepth? depth (a ++ b) = (braceDepth? depth a).bind (braceDepth? · b) := by
  fun_induction braceDepth? depth a with
  | case1 => rfl
  | case2 depth cs ih => simpa [braceDepth?] using ih
  | case3 cs h => simp [braceDepth?]
  | case4 depth cs hdepth h ih => simpa [braceDepth?, hdepth] using ih
  | case5 depth c cs ho hc ih => simpa [braceDepth?, ho, hc] using ih

theorem braceDepth?_cons_other {c : Char} (ho : c ≠ '{') (hc : c ≠ '}') (depth : Nat)
    (cs : List Char) : braceDepth? depth (c :: cs) = braceDepth? depth cs := by
  rw [braceDepth?, if_neg ho, if_neg hc]

/-- Inside of more braces a text leads as deep below them. -/
theorem braceDepth?_add {depth depth' : Nat} {cs : List Char}
    (h : braceDepth? depth cs = some depth') (n : Nat) :
    braceDepth? (depth + n) cs = some (depth' + n) := by
  fun_induction braceDepth? depth cs with
  | case1 =>
      cases h
      rfl
  | case2 depth cs ih =>
      rw [braceDepth?, if_pos rfl, Nat.add_right_comm]
      exact ih h
  | case3 => cases h
  | case4 depth cs hdepth hne ih =>
      have hsub : depth + n - 1 = depth - 1 + n := by omega
      rw [braceDepth?, if_neg hne, if_pos rfl, if_neg (by omega), hsub]
      exact ih h
  | case5 depth c cs ho hc ih =>
      rw [braceDepth?_cons_other ho hc]
      exact ih h

theorem Balanced.braceDepth? {cs : List Char} (h : Balanced cs) (depth : Nat) :
    braceDepth? depth cs = some depth := by
  simpa using braceDepth?_add h depth

/-- No slash of the text, in front of `ds`, opens a comment. -/
def OpensNoComment (text ds : List Char) : Prop :=
  ¬['/', '/'] <:+: text ++ ds.take 1 ∧ ¬['/', '*'] <:+: text ++ ds.take 1

instance (text ds : List Char) : Decidable (OpensNoComment text ds) :=
  inferInstanceAs (Decidable (_ ∧ _))

namespace OpensNoComment

variable {c : Char} {text ds : List Char}

theorem tail (h : OpensNoComment (c :: text) ds) : OpensNoComment text ds :=
  ⟨fun hin => h.1 (hin.trans (List.suffix_cons c _).isInfix),
    fun hin => h.2 (hin.trans (List.suffix_cons c _).isInfix)⟩

theorem head (h : OpensNoComment (c :: text) ds) :
    ¬(c = '/' ∧ ((text ++ ds).head? = some '/' ∨ (text ++ ds).head? = some '*')) := by
  have hstart : ∀ d, (text ++ ds).head? = some d → [c, d] <:+: c :: text ++ ds.take 1 := by
    intro d hd
    refine List.IsPrefix.isInfix ?_
    rw [List.cons_append, List.cons_prefix_cons]
    refine ⟨rfl, ?_⟩
    cases text with
    | nil =>
        cases ds with
        | nil => cases hd
        | cons e ds => cases hd; simp
    | cons e text => cases hd; simp
  rintro ⟨rfl, hd | hd⟩
  · exact h.1 (hstart _ hd)
  · exact h.2 (hstart _ hd)

theorem of_not_mem (h : '/' ∉ text) (ds : List Char) : OpensNoComment text ds := by
  have hnot : ∀ d, ¬['/', d] <:+: text ++ ds.take 1 := by
    intro d
    induction text with
    | nil =>
        intro hin
        have hlength := hin.length_le
        have htake := List.length_take_le 1 ds
        simp only [List.nil_append, List.length_cons, List.length_nil] at hlength
        omega
    | cons c text ih =>
        obtain ⟨hc, htext⟩ := not_or.mp (mt List.mem_cons.mpr h)
        rw [List.cons_append, List.infix_cons_iff, not_or]
        exact ⟨fun hstart => hc (List.cons_prefix_cons.mp hstart).1, ih htext⟩
  exact ⟨hnot '/', hnot '*'⟩

end OpensNoComment

/-- As the code of an interpolation the text is read from its first sign to its last, and the code
goes on at another depth of braces. -/
def PassesOver (depth : Nat) (text : List Char) (depth' : Nat) (ds : List Char) : Prop :=
  readCode depth (text ++ ds) =
    ⟨(), text ++ (readCode depth' ds).text, (readCode depth' ds).rest⟩

namespace PassesOver

variable {depth depth' depth'' : Nat} {a b text ds : List Char}

theorem append (ha : PassesOver depth a depth' (b ++ ds)) (hb : PassesOver depth' b depth'' ds) :
    PassesOver depth (a ++ b) depth'' ds := by
  rw [PassesOver] at ha hb ⊢
  rw [List.append_assoc, ha, hb, List.append_assoc]

/-- Signs that open neither a literal nor a comment are passed over one by one. -/
theorem signs (hquote : ∀ c ∈ text, isQuote c = false) (hcomment : OpensNoComment text ds)
    (hdepth : braceDepth? depth text = some depth') : PassesOver depth text depth' ds := by
  fun_induction braceDepth? depth text with
  | case1 =>
      cases hdepth
      rfl
  | case2 depth cs ih =>
      have hcs := ih (fun c hc => hquote c (List.mem_cons_of_mem _ hc)) hcomment.tail hdepth
      rw [PassesOver] at hcs ⊢
      rw [List.cons_append, readCode_open, hcs, List.cons_append]
  | case3 => cases hdepth
  | case4 depth cs hdepth' hne ih =>
      have hcs := ih (fun c hc => hquote c (List.mem_cons_of_mem _ hc)) hcomment.tail hdepth
      obtain ⟨depth, rfl⟩ := Nat.exists_eq_succ_of_ne_zero hdepth'
      rw [PassesOver] at hcs ⊢
      rw [List.cons_append, Nat.succ_eq_add_one, readCode_close]
      rw [Nat.succ_sub_one] at hcs
      rw [hcs, List.cons_append]
  | case5 depth c cs ho hc ih =>
      have hcs := ih (fun c hc => hquote c (List.mem_cons_of_mem _ hc)) hcomment.tail hdepth
      have hplain : isQuote c = false := hquote c List.mem_cons_self
      simp only [isQuote, Bool.or_eq_false_iff, beq_eq_false_iff_ne] at hplain
      obtain ⟨⟨hsingle, hdouble⟩, htick⟩ := hplain
      rw [PassesOver] at hcs ⊢
      rw [List.cons_append, readCode_other ho hc hcomment.head htick (by simp [hsingle, hdouble]),
        hcs, List.cons_append]

end PassesOver

/-- The sign of a token that is one. -/
def TokenKind.sign? : TokenKind → Option Char
  | .punct c => some c
  | _ => none

/-- Read as code, the text holds no literal and no comment, and closes the braces that it opens. -/
structure ReadsAsCode (text ds : List Char) : Prop where
  unquoted : ∀ c ∈ text, isQuote c = false
  uncommented : OpensNoComment text ds
  balanced : Balanced text

-- Along the text: characters are finitely many, so that all of them could be looked through too.
instance (text ds : List Char) : Decidable (ReadsAsCode text ds) :=
  have := List.decidableBAll (isQuote · = false) text
  decidable_of_iff ((∀ c ∈ text, isQuote c = false) ∧ OpensNoComment text ds ∧ Balanced text)
    ⟨fun h => ⟨h.1, h.2.1, h.2.2⟩, fun h => ⟨h.unquoted, h.uncommented, h.balanced⟩⟩

namespace PassesOver

variable (depth : Nat) {cs ds : List Char}

/-- Signs of a class that no brace, no slash and no quote belongs to. -/
theorem ofClass {p : Char → Bool} (hcs : ∀ c ∈ cs, p c = true)
    (hp : ['{', '}', '/', '\'', '"', '\x60'].all (!p ·) = true) :
    PassesOver depth cs depth ds := by
  have hne : ∀ c ∈ cs, c ∉ ['{', '}', '/', '\'', '"', '\x60'] := fun c hc hmem => by
    simpa [hcs c hc] using List.all_eq_true.mp hp c hmem
  clear hcs hp
  refine .signs ?_ (.of_not_mem (fun h => hne _ h (by decide)) ds) ?_
  · intro c hc
    have hc := hne c hc
    simp only [List.mem_cons, List.not_mem_nil, or_false, not_or] at hc
    simp [isQuote, hc]
  · induction cs with
    | nil => rfl
    | cons c cs ih =>
        obtain ⟨hc, hcs⟩ := List.forall_mem_cons.mp hne
        simp only [List.mem_cons, List.not_mem_nil, or_false, not_or] at hc
        rw [braceDepth?_cons_other hc.1 hc.2.1]
        exact ih hcs

theorem lineComment (h : Lexer.lineComment (cs ++ ds) = ⟨(), cs, ds⟩) :
    PassesOver depth ('/' :: '/' :: cs) depth ds := by
  rw [PassesOver, List.cons_append, List.cons_append, readCode_lineComment, h]
  rfl

theorem blockComment (h : Lexer.blockComment (cs ++ ds) = ⟨(), cs, ds⟩) :
    PassesOver depth ('/' :: '*' :: cs) depth ds := by
  rw [PassesOver, List.cons_append, List.cons_append, readCode_blockComment, h]
  rfl

theorem quoted {c : Char} {value : List Char} (hc : c = '\'' ∨ c = '"')
    (h : Lexer.quoted c (cs ++ ds) = ⟨value, cs, ds⟩) : PassesOver depth (c :: cs) depth ds := by
  rw [PassesOver, List.cons_append, readCode_quoted _ hc, h, List.cons_append]

theorem template {chunks : List (List Char)} (h : readTemplate (cs ++ ds) = ⟨chunks, cs, ds⟩) :
    PassesOver depth ('\x60' :: cs) depth ds := by
  rw [PassesOver, List.cons_append, readCode_template, h, List.cons_append]

end PassesOver

theorem OpensNoComment.sign {c : Char} {ds : List Char}
    (h : c = '/' → ds.head? ≠ some '/' ∧ ds.head? ≠ some '*') : OpensNoComment [c] ds := by
  have hnot : ∀ d, (c = '/' → ds.head? ≠ some d) → ¬['/', d] <:+: [c] ++ ds.take 1 := by
    intro d hne hin
    have heq := hin.eq_of_length_le (Nat.succ_le_succ (List.length_take_le 1 ds))
    cases ds with
    | nil => cases heq
    | cons e ds =>
        cases heq
        exact hne rfl rfl
  exact ⟨hnot '/' fun hc => (h hc).1, hnot '*' fun hc => (h hc).2⟩

/-- The code of an interpolation passes over a lexeme as a whole. -/
theorem Stands.passesOver {prior : Option TokenKind} {l : Lexeme} {ds : List Char}
    {depth depth' : Nat} (h : Stands prior l ds)
    (hdepth : braceDepth? depth (l.kind.bind TokenKind.sign?).toList = some depth')
    (hregex : l.kind = some .regex → ReadsAsCode l.text ds) :
    PassesOver depth l.text depth' ds := by
  obtain ⟨kind, text⟩ := l
  obtain ⟨c, cs, rfl, hread⟩ := stands_iff.mp h
  -- Of the tokens only a sign changes the depth.
  have hsame : kind.bind TokenKind.sign? = none → depth' = depth := by
    intro hnone
    rw [hnone] at hdepth
    exact (Option.some.inj hdepth).symm
  generalize hxs : cs ++ ds = xs at hread
  cases hread with
  | space hc =>
      obtain rfl := hsame rfl
      exact .ofClass _ (by simpa using hc) (by decide)
  | line htext hrest =>
      obtain rfl := hsame rfl
      exact .lineComment _ (lineComment_run htext hrest)
  | block h =>
      obtain rfl := hsame rfl
      obtain rfl := (List.cons.inj hxs).2
      exact .blockComment _ h
  | regex =>
      obtain rfl := hsame rfl
      have hcode := hregex rfl
      exact .signs hcode.unquoted hcode.uncommented (hcode.balanced.braceDepth? _)
  | slash hrest =>
      exact .signs (List.forall_mem_singleton.mpr rfl) (.sign fun _ => hrest) hdepth
  | quoted hc h =>
      obtain rfl := hsame rfl
      subst hxs
      exact .quoted _ hc h
  | template h =>
      obtain rfl := hsame rfl
      subst hxs
      exact .template _ h
  | number hc hrun =>
      obtain rfl := hsame rfl
      have hc : isNumberChar c = true := by simp [isNumberChar, Char.isAlphanum, hc]
      exact .ofClass _ (List.forall_mem_cons.mpr ⟨hc, hrun⟩) (by decide)
  | name _ hname =>
      obtain rfl := hsame rfl
      exact .ofClass _ hname (by decide)
  | sign hc =>
      simp only [isSign, Bool.not_eq_true', Bool.or_eq_false_iff, beq_eq_false_iff_ne] at hc
      obtain ⟨⟨⟨⟨-, hslash⟩, hquote⟩, -⟩, -⟩ := hc
      exact .signs (List.forall_mem_singleton.mpr hquote) (.sign fun hc => absurd hc hslash) hdepth

/-- The signs among lexemes. -/
def signsOf (ls : List Lexeme) : List Char := ls.filterMap fun l => l.kind.bind TokenKind.sign?

/-- The regular expressions among lexemes can be read as code, the last one in front of `ds`. -/
def RegexesReadAsCode : List Lexeme → List Char → Prop
  | [], _ => True
  | l :: ls, ds =>
      (l.kind = some .regex → ReadsAsCode l.text (spell ls ++ ds)) ∧ RegexesReadAsCode ls ds

instance decidableRegexesReadAsCode :
    (ls : List Lexeme) → (ds : List Char) → Decidable (RegexesReadAsCode ls ds)
  | [], _ => .isTrue trivial
  | _ :: ls, ds =>
      have := decidableRegexesReadAsCode ls ds
      inferInstanceAs (Decidable (_ ∧ _))

/-- Of what follows only the first sign matters. -/
theorem RegexesReadAsCode.append {ls : List Lexeme} {c : Char} (h : RegexesReadAsCode ls [c])
    (ds : List Char) : RegexesReadAsCode ls (c :: ds) := by
  induction ls with
  | nil => trivial
  | cons l ls ih =>
      refine ⟨fun hkind => ?_, ih h.2⟩
      obtain ⟨hunquoted, huncommented, hbalanced⟩ := h.1 hkind
      have htake : (spell ls ++ c :: ds).take 1 = (spell ls ++ [c]).take 1 := by
        cases spell ls <;> rfl
      exact ⟨hunquoted, by rwa [OpensNoComment, htake], hbalanced⟩

/-- The code of an interpolation passes over lexemes one by one. -/
theorem Chain.passesOver {prior : Option TokenKind} {ls : List Lexeme} {ds : List Char}
    {depth depth' : Nat} (h : Chain prior ls ds)
    (hdepth : braceDepth? depth (signsOf ls) = some depth') (hregex : RegexesReadAsCode ls ds) :
    PassesOver depth (spell ls) depth' ds := by
  induction ls generalizing prior depth with
  | nil =>
      cases hdepth
      rfl
  | cons l ls ih =>
      obtain ⟨hl, hls⟩ := h
      have hsigns : signsOf (l :: ls) = (l.kind.bind TokenKind.sign?).toList ++ signsOf ls := by
        rw [signsOf, List.filterMap_cons]
        cases l.kind.bind TokenKind.sign? <;> rfl
      rw [hsigns, braceDepth?_append] at hdepth
      obtain ⟨between, hfirst, hrest⟩ := Option.bind_eq_some_iff.mp hdepth
      exact .append (hl.passesOver hfirst hregex.1) (ih hls hrest hregex.2)

/-- Nothing in the text is left open: a brace behind it is a token of its own. This is so when every
literal and block comment in it is closed and every line comment has the end of its line. -/
def IsWhole (cs : List Char) : Prop :=
  lexemes none (cs ++ ['}']) = lexemes none cs ++ [⟨some (.punct '}'), ['}']⟩]

instance (cs : List Char) : Decidable (IsWhole cs) := inferInstanceAs (Decidable (_ = _))

theorem IsWhole.chain {cs : List Char} (h : IsWhole cs) (ds : List Char) :
    Chain none (lexemes none cs) ('}' :: ds) := by
  have hchain := chain_lexemes none (cs ++ ['}'])
  rw [h] at hchain
  have hcs := (Chain.of_append hchain).1
  exact hcs.of_synced (.inl rfl) fun _ _ _ hlast => hlast.of_sameStart (.head '}' _ _)

/-- Whole code whose braces are closed is passed over up to the brace behind it. -/
theorem readCode_whole {cs : List Char} (hwhole : IsWhole cs)
    (hbraces : Balanced (signsOf (lexemes none cs)))
    (hregex : RegexesReadAsCode (lexemes none cs) ['}']) (ds : List Char) :
    readCode 0 (cs ++ '}' :: ds) = ⟨(), cs ++ ['}'], ds⟩ := by
  have hpasses := (hwhole.chain ds).passesOver hbraces (hregex.append ds)
  rw [spell, flatMap_text_lexemes] at hpasses
  rw [hpasses, readCode_end]

/-- A static chunk of a template: it neither ends the template nor opens an interpolation. -/
structure IsChunk (cs : List Char) : Prop where
  unclosed : '\x60' ∉ cs
  unescaped : '\\' ∉ cs
  unopened : ¬['$', '{'] <:+: cs

instance (cs : List Char) : Decidable (IsChunk cs) :=
  decidable_of_iff ('\x60' ∉ cs ∧ '\\' ∉ cs ∧ ¬['$', '{'] <:+: cs)
    ⟨fun h => ⟨h.1, h.2.1, h.2.2⟩, fun h => ⟨h.unclosed, h.unescaped, h.unopened⟩⟩

theorem readTemplate_chunk {cs ds : List Char} (h : IsChunk cs) (hds : ds.head? ≠ some '{') :
    readTemplate (cs ++ ds) =
      ⟨cs.foldr pushChunk (readTemplate ds).value, cs ++ (readTemplate ds).text,
        (readTemplate ds).rest⟩ := by
  induction cs with
  | nil => rfl
  | cons c cs ih =>
      obtain ⟨hunclosed, hunescaped, hunopened⟩ := h
      rw [List.mem_cons, not_or] at hunclosed hunescaped
      rw [List.infix_cons_iff, not_or] at hunopened
      have hopen : ¬(c = '$' ∧ (cs ++ ds).head? = some '{') := by
        rintro ⟨rfl, hhead⟩
        cases cs with
        | nil => exact hds hhead
        | cons d cs =>
            cases hhead
            exact hunopened.1 (by simp)
      rw [List.cons_append, readTemplate_other (Ne.symm hunclosed.1) (Ne.symm hunescaped.1) hopen,
        ih ⟨hunclosed.2, hunescaped.2, hunopened.2⟩]
      rfl

theorem readTemplate_interpolated {a b c : List Char} (ha : IsChunk a) (hc : IsChunk c)
    (hwhole : IsWhole b) (hbraces : Balanced (signsOf (lexemes none b)))
    (hregex : RegexesReadAsCode (lexemes none b) ['}']) (ds : List Char) :
    readTemplate (a ++ '$' :: '{' :: (b ++ '}' :: (c ++ '\x60' :: ds))) =
      ⟨[a, c], a ++ '$' :: '{' :: (b ++ '}' :: (c ++ ['\x60'])), ds⟩ := by
  have hlast : readTemplate (c ++ '\x60' :: ds) = ⟨[c], c ++ ['\x60'], ds⟩ := by
    rw [readTemplate_chunk hc (by simp), readTemplate_close, foldr_pushChunk, List.append_nil]
  rw [readTemplate_chunk ha (by simp), readTemplate_open, readCode_whole hwhole hbraces hregex, hlast,
    foldr_pushChunk]
  simp

theorem stands_template (prior : Option TokenKind) {cs ds : List Char} {chunks : List (List Char)}
    (h : readTemplate (cs ++ ds) = ⟨chunks, cs, ds⟩) :
    Stands prior ⟨some (.template (chunks.map String.ofList)), '\x60' :: cs⟩ ds :=
  (Reads.template h).stands

theorem lexemes_template {prior : Option TokenKind} {cs : List Char} {chunks : List (List Char)}
    (h : readTemplate cs = ⟨chunks, cs, []⟩) :
    lexemes prior ('\x60' :: cs) = [⟨some (.template (chunks.map String.ofList)), '\x60' :: cs⟩] := by
  have hchain : Chain prior [⟨some (.template (chunks.map String.ofList)), '\x60' :: cs⟩] [] :=
    ⟨stands_template prior (by simpa using h), trivial⟩
  simpa [lexemes] using lexemes_chain hchain

/-- A template with one interpolation is one token, if the code of the interpolation is whole and
its braces are closed, and if its regular expressions can be read as code. -/
theorem tokenize_interpolated {a b c : String} (ha : IsChunk a.toList) (hc : IsChunk c.toList)
    (hwhole : IsWhole b.toList) (hbraces : Balanced (signsOf (lexemes none b.toList)))
    (hregex : RegexesReadAsCode (lexemes none b.toList) ['}']) :
    let source := "\x60" ++ a ++ "$\x7b" ++ b ++ "\x7d" ++ c ++ "\x60"
    tokenize source = [⟨.template [a, c], ⟨0, byteLength source.toList⟩⟩] := by
  intro source
  have hsource : source.toList =
      '\x60' :: (a.toList ++ '$' :: '{' :: (b.toList ++ '}' :: (c.toList ++ ['\x60']))) := by
    simp [source]
  rw [tokenize, hsource,
    lexemes_template (readTemplate_interpolated ha hc hwhole hbraces hregex [])]
  simp [place]

/-- An interpolation with braces in a string, a regular expression, a template and a comment. -/
theorem tokenize_interpolated_nested :
    let code := "f(\x7b k: '\x7d' \x7d, /a\x7b2\x7d/g, \x60n$\x7b1\x7d\x60) /* \x7d */"
    IsWhole code.toList ∧ Balanced (signsOf (lexemes none code.toList)) ∧
      RegexesReadAsCode (lexemes none code.toList) ['}'] ∧
      tokenize ("\x60" ++ "./" ++ "$\x7b" ++ code ++ "\x7d" ++ ".css" ++ "\x60") =
        [⟨.template ["./", ".css"], ⟨0, 50⟩⟩] := by
  intro code
  have hwhole : IsWhole code.toList := by decide +kernel
  have hbraces : Balanced (signsOf (lexemes none code.toList)) := by decide +kernel
  have hregex : RegexesReadAsCode (lexemes none code.toList) ['}'] := by decide +kernel
  have hlength : byteLength
      ("\x60" ++ "./" ++ "$\x7b" ++ code ++ "\x7d" ++ ".css" ++ "\x60").toList = 50 := by
    decide +kernel
  refine ⟨hwhole, hbraces, hregex, ?_⟩
  rw [← hlength]
  exact tokenize_interpolated (a := "./") (c := ".css") (by decide) (by decide) hwhole hbraces hregex

/-- A brace in a regular expression ends an interpolation, though the code is whole and the braces
among its tokens are closed. -/
theorem tokenize_interpolated_regex :
    IsChunk "a".toList ∧ IsChunk "c".toList ∧ IsWhole "/\x7d/".toList ∧
      Balanced (signsOf (lexemes none "/\x7d/".toList)) ∧
      tokenize ("\x60" ++ "a" ++ "$\x7b" ++ "/\x7d/" ++ "\x7d" ++ "c" ++ "\x60") =
        [⟨.template ["a", "/\x7dc"], ⟨0, 10⟩⟩] := by
  decide +kernel

end StyleBundler.Script
