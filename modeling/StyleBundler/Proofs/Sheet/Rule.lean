import StyleBundler.Proofs.Sheet.Brace
import StyleBundler.Proofs.Text.Blank
import StyleBundler.Sheet.Rule

/-!
Rules of texts put together. A self-contained text gives its own rules and leaves a
prelude to the text behind it (`exists_rulesFrom_append`); blanks around a text change
no rule (`rulesFrom_trim`).
-/

namespace StyleBundler.Sheet

open Text

theorem rulesFrom_comment (prelude cs : List Char) :
    rulesFrom prelude ('/' :: '*' :: cs) = rulesFrom prelude (afterComment cs) := by
  rw [rulesFrom]

theorem rulesFrom_quote {c : Char} (hc : c = '"' ∨ c = '\'') (prelude cs : List Char) :
    rulesFrom prelude (c :: cs) =
      rulesFrom ((splitString c cs).1.reverse ++ c :: prelude) (splitString c cs).2 := by
  rw [rulesFrom]
  · simp only [hc, if_true]
  · rintro ds rfl
    simp at hc

theorem rulesFrom_semicolon (prelude cs : List Char) :
    rulesFrom prelude (';' :: cs) = (statement? prelude.reverse).toList ++ rulesFrom [] cs := by
  rw [rulesFrom]
  · simp
  · simp

theorem rulesFrom_brace (prelude cs : List Char) :
    rulesFrom prelude ('{' :: cs) =
      blockRule prelude.reverse (splitBlock .plain 0 cs).1 ::
        rulesFrom [] (splitBlock .plain 0 cs).2 := by
  rw [rulesFrom]
  · simp
  · simp

/-- A closed string goes into the prelude as a whole. -/
theorem rulesFrom_string {c : Char} (hc : c = '"' ∨ c = '\'') {text : List Char}
    (h : ClosesString c text) (prelude rest : List Char) :
    rulesFrom prelude (c :: (text ++ rest)) = rulesFrom (text.reverse ++ c :: prelude) rest := by
  rw [rulesFrom_quote hc, h.split]

/-- The block around a self-contained text is that text. -/
theorem rulesFrom_block {body : List Char} (h : SelfContained body) (prelude rest : List Char) :
    rulesFrom prelude ('{' :: (body ++ '}' :: rest)) =
      blockRule prelude.reverse body :: rulesFrom [] rest := by
  rw [rulesFrom_brace, splitBlock_selfContained h]

theorem rulesFrom_other {c : Char} {cs : List Char} (hquote : ¬(c = '"' ∨ c = '\''))
    (hsemicolon : c ≠ ';') (hbrace : c ≠ '{') (hcomment : c = '/' → cs.head? ≠ some '*')
    (prelude : List Char) : rulesFrom prelude (c :: cs) = rulesFrom (c :: prelude) cs := by
  rw [rulesFrom]
  · simp only [hquote, hsemicolon, hbrace, if_false]
  · rintro ds rfl rfl
    exact hcomment rfl rfl

/-- A sign that only adds to the prelude, whatever stands behind it. -/
def isPreludeChar (c : Char) : Bool :=
  c != '/' && c != '"' && c != '\'' && c != ';' && c != '{'

theorem isPreludeChar_iff {c : Char} :
    isPreludeChar c = true ↔ c ≠ '/' ∧ c ≠ '"' ∧ c ≠ '\'' ∧ c ≠ ';' ∧ c ≠ '{' := by
  simp only [isPreludeChar, Bool.and_eq_true, bne_iff_ne, and_assoc]

theorem isPreludeChar_of_isBlank {c : Char} (h : isBlank c = true) : isPreludeChar c = true := by
  rw [isPreludeChar_iff]
  refine ⟨?_, ?_, ?_, ?_, ?_⟩ <;> rintro rfl <;> revert h <;> decide

theorem rulesFrom_preludeChars {text : List Char} (h : ∀ c ∈ text, isPreludeChar c = true)
    (prelude cs : List Char) :
    rulesFrom prelude (text ++ cs) = rulesFrom (text.reverse ++ prelude) cs := by
  induction text generalizing prelude with
  | nil => rfl
  | cons c text ih =>
      obtain ⟨hslash, hdouble, hsingle, hsemicolon, hbrace⟩ := isPreludeChar_iff.mp (h c (by simp))
      rw [List.cons_append, rulesFrom_other (by simp [hdouble, hsingle]) hsemicolon hbrace
        (fun h => absurd h hslash), ih fun c hc => h c (List.mem_cons_of_mem _ hc)]
      simp

/-- The blanks that a prelude starts with are trimmed in the end. -/
theorem rulesFrom_append_blanks {blanks : List Char} (h : ∀ c ∈ blanks, isBlank c = true)
    (prelude cs : List Char) : rulesFrom (prelude ++ blanks) cs = rulesFrom prelude cs := by
  have htrim : ∀ p : List Char, trim (p ++ blanks).reverse = trim p.reverse := by
    intro p
    rw [List.reverse_append]
    exact trim_blanks_append (by simpa using h) _
  fun_induction rulesFrom prelude cs with
  | case1 => rw [rulesFrom]
  | case2 prelude cs _ ih => rw [rulesFrom_comment, ih]
  | case3 prelude c cs _ hquote _ ih =>
      rw [rulesFrom_quote hquote, ← ih, List.append_assoc, List.cons_append]
  | case4 prelude cs _ _ =>
      rw [rulesFrom_semicolon, statement?, statement?, htrim]
  | case5 prelude cs _ _ _ _ _ =>
      rw [rulesFrom_brace, blockRule, blockRule, htrim]
  | case6 prelude c cs hcomment hquote hsemicolon hbrace ih =>
      rw [rulesFrom_other hquote hsemicolon hbrace, ← List.cons_append, ih]
      rintro rfl hhead
      cases cs with
      | nil => cases hhead
      | cons d cs =>
          simp only [List.head?_cons, Option.some.injEq] at hhead
          subst hhead
          exact hcomment cs rfl rfl

theorem SelfContained.of_cons {c : Char} {cs : List Char} (h : SelfContained (c :: cs))
    (hquote : ¬(c = '"' ∨ c = '\'')) (hbrace : c ≠ '{')
    (hcomment : c = '/' → cs.head? ≠ some '*') : SelfContained cs := by
  rw [selfContained_iff] at h ⊢
  obtain ⟨mode, hm, h⟩ := h
  by_cases hc : c = '}'
  · subst hc
    cases h
  · by_cases hslash : c = '/'
    · subst hslash
      cases cs with
      | nil => exact ⟨.plain, rfl, rfl⟩
      | cons d cs =>
          refine ⟨mode, hm, ?_⟩
          rw [← readBraces_slash fun hd => hcomment rfl (by rw [hd]; rfl)]
          exact h
    · refine ⟨mode, hm, ?_⟩
      simpa [readBraces, Mode.isCode, Mode.next, Mode.ofCode, hc, hslash, hquote, hbrace]
        using h

theorem SelfContained.of_comment {cs : List Char} (h : SelfContained ('/' :: '*' :: cs)) :
    ∃ tail, SelfContained tail ∧ tail.length < cs.length ∧
      ∀ b, afterComment (cs ++ b) = tail ++ b := by
  obtain ⟨mode, hm, hread⟩ := selfContained_iff.mp h
  have hread : readBraces .comment 0 cs = some (mode, 0) := hread
  obtain ⟨tail, htail, hlen, hafter⟩ := exists_afterComment hread hm
  exact ⟨tail, selfContained_iff.mpr ⟨mode, hm, htail⟩, hlen, hafter⟩

theorem SelfContained.of_string {c : Char} {cs : List Char} (h : SelfContained (c :: cs))
    (hquote : c = '"' ∨ c = '\'') :
    ∃ text tail, cs = text ++ tail ∧ ClosesString c text ∧ SelfContained tail := by
  obtain ⟨mode, hm, hread⟩ := selfContained_iff.mp h
  have hread : readBraces (.quoted c) 0 cs = some (mode, 0) := by
    rcases hquote with rfl | rfl <;> exact hread
  have hback : c ≠ '\\' := by rcases hquote with rfl | rfl <;> decide
  obtain ⟨text, tail, hcs, htext, htail⟩ := exists_closesString hback hread hm
  exact ⟨text, tail, hcs, htext, selfContained_iff.mpr ⟨mode, hm, htail⟩⟩

theorem SelfContained.of_brace {cs : List Char} (h : SelfContained ('{' :: cs)) :
    ∃ body tail, cs = body ++ '}' :: tail ∧ SelfContained body ∧ SelfContained tail := by
  obtain ⟨mode, hm, hread⟩ := selfContained_iff.mp h
  have hread : readBraces .plain 1 cs = some (mode, 0) := hread
  obtain ⟨body, tail, hcs, hbody, htail⟩ := exists_block hread
  exact ⟨body, tail, hcs, selfContained_iff.mpr hbody, selfContained_iff.mpr ⟨mode, hm, htail⟩⟩

/-- A self-contained text gives its rules, and hands a prelude on to the text behind
it. That text must not make a comment of a slash at the end. -/
theorem exists_rulesFrom_append {cs : List Char} (h : SelfContained cs) (prelude : List Char) :
    ∃ prelude', ∀ b : List Char, b.head? ≠ some '*' →
      rulesFrom prelude (cs ++ b) = rulesFrom prelude cs ++ rulesFrom prelude' b := by
  induction hn : cs.length using Nat.strong_induction_on generalizing cs prelude with
  | _ n ih =>
  subst hn
  cases cs with
  | nil => exact ⟨prelude, fun b _ => by simp [rulesFrom]⟩
  | cons c cs =>
      by_cases hcomment : c = '/' ∧ cs.head? = some '*'
      · obtain ⟨rfl, hhead⟩ := hcomment
        obtain ⟨cs, rfl⟩ := List.head?_eq_some_iff.mp hhead
        obtain ⟨tail, htail, hlen, hafter⟩ := h.of_comment
        obtain ⟨prelude', hrules⟩ := ih tail.length (by simp only [List.length_cons]; omega)
          htail prelude rfl
        refine ⟨prelude', fun b hb => ?_⟩
        have hcs : afterComment cs = tail := by simpa using hafter []
        rw [List.cons_append, List.cons_append, rulesFrom_comment, rulesFrom_comment, hcs,
          hafter, hrules b hb]
      by_cases hquote : c = '"' ∨ c = '\''
      · obtain ⟨text, tail, rfl, htext, htail⟩ := h.of_string hquote
        have hlen : tail.length < (c :: (text ++ tail)).length := by
          simp only [List.length_cons, List.length_append]
          omega
        obtain ⟨prelude', hrules⟩ := ih tail.length hlen htail (text.reverse ++ c :: prelude) rfl
        refine ⟨prelude', fun b hb => ?_⟩
        rw [List.cons_append, List.append_assoc, rulesFrom_string hquote htext,
          rulesFrom_string hquote htext, hrules b hb]
      by_cases hbrace : c = '{'
      · subst hbrace
        obtain ⟨body, tail, rfl, hbody, htail⟩ := h.of_brace
        have hlen : tail.length < ('{' :: (body ++ '}' :: tail)).length := by
          simp only [List.length_cons, List.length_append]
          omega
        obtain ⟨prelude', hrules⟩ := ih tail.length hlen htail [] rfl
        refine ⟨prelude', fun b hb => ?_⟩
        rw [List.cons_append, List.append_assoc, List.cons_append, rulesFrom_block hbody,
          rulesFrom_block hbody, hrules b hb, List.cons_append]
      have hhead : c = '/' → cs.head? ≠ some '*' := fun hc hs => hcomment ⟨hc, hs⟩
      have hcs : SelfContained cs := h.of_cons hquote hbrace hhead
      by_cases hsemicolon : c = ';'
      · subst hsemicolon
        obtain ⟨prelude', hrules⟩ := ih cs.length (Nat.lt_succ_self _) hcs [] rfl
        refine ⟨prelude', fun b hb => ?_⟩
        rw [List.cons_append, rulesFrom_semicolon, rulesFrom_semicolon, hrules b hb,
          List.append_assoc]
      · obtain ⟨prelude', hrules⟩ := ih cs.length (Nat.lt_succ_self _) hcs (c :: prelude) rfl
        refine ⟨prelude', fun b hb => ?_⟩
        rw [List.cons_append, rulesFrom_other hquote hsemicolon hbrace,
          rulesFrom_other hquote hsemicolon hbrace hhead, hrules b hb]
        intro hc
        cases cs with
        | nil => exact hb
        | cons d cs => exact hhead hc

/-- Blanks neither close a string or a comment nor count as braces. -/
theorem of_readBraces_blanks {mode mode' : Mode} {depth depth' : Nat} {blanks : List Char}
    (hb : ∀ c ∈ blanks, isBlank c = true) (hmode : mode.IsQuoting)
    (h : readBraces mode depth blanks = some (mode', depth')) (hm : mode'.isCode = true) :
    mode.isCode = true ∧ depth' = depth := by
  induction blanks generalizing mode depth with
  | nil =>
      simp only [readBraces, Option.some.injEq, Prod.mk.injEq] at h
      exact ⟨h.1 ▸ hm, h.2.symm⟩
  | cons c blanks ih =>
      have hc := hb c (by simp)
      have hne : ∀ d : Char, isBlank d = false → c ≠ d := by
        rintro d hd rfl
        rw [hc] at hd
        cases hd
      have hopen : c ≠ '{' := hne _ (by decide)
      have hclose : c ≠ '}' := hne _ (by decide)
      have hread : readBraces (mode.next c) depth blanks = some (mode', depth') := by
        simpa [readBraces, hopen, hclose] using h
      obtain ⟨hcode, hdepth⟩ := ih (fun c hc => hb c (List.mem_cons_of_mem _ hc))
        (Mode.isQuoting_next hmode c) hread
      refine ⟨?_, hdepth⟩
      cases mode with
      | plain | slash => rfl
      | quoted q =>
          have hq : c ≠ q := by rcases hmode with rfl | rfl <;> exact hne _ (by decide)
          have hback : c ≠ '\\' := hne _ (by decide)
          simp [Mode.next, hq, hback, Mode.isCode] at hcode
      | escaped q => cases hcode
      | comment =>
          have hstar : c ≠ '*' := hne _ (by decide)
          simp [Mode.next, hstar, Mode.isCode] at hcode
      | star =>
          have hstar : c ≠ '*' := hne _ (by decide)
          have hslash : c ≠ '/' := hne _ (by decide)
          simp [Mode.next, hstar, hslash, Mode.isCode] at hcode

theorem SelfContained.of_append_blanks {cs blanks : List Char}
    (hb : ∀ c ∈ blanks, isBlank c = true) (h : SelfContained (cs ++ blanks)) :
    SelfContained cs := by
  obtain ⟨mode, hm, h⟩ := selfContained_iff.mp h
  rw [readBraces_append, Option.bind_eq_some_iff] at h
  obtain ⟨⟨mode', depth⟩, hread, hblanks⟩ := h
  obtain ⟨hcode, hdepth⟩ :=
    of_readBraces_blanks hb (isQuoting_of_readBraces hread trivial) hblanks hm
  exact selfContained_iff.mpr ⟨mode', hcode, by rw [hread, hdepth]⟩

theorem SelfContained.of_blanks_append {cs blanks : List Char}
    (hb : ∀ c ∈ blanks, isBlank c = true) (h : SelfContained (blanks ++ cs)) :
    SelfContained cs := by
  induction blanks with
  | nil => exact h
  | cons c blanks ih =>
      obtain ⟨hslash, hdouble, hsingle, -, hbrace⟩ :=
        isPreludeChar_iff.mp (isPreludeChar_of_isBlank (hb c (by simp)))
      exact ih (fun c hc => hb c (List.mem_cons_of_mem _ hc))
        (h.of_cons (by simp [hdouble, hsingle]) hbrace fun h => absurd h hslash)

theorem SelfContained.trim {cs : List Char} (h : SelfContained cs) :
    SelfContained (Text.trim cs) := by
  obtain ⟨front, back, hfront, hback, hcs⟩ := exists_blanks_trim cs
  rw [hcs] at h
  exact (h.of_blanks_append hfront).of_append_blanks hback

/-- Blanks in front of a self-contained text and behind it change none of its rules. -/
theorem rulesFrom_trim {cs : List Char} (h : SelfContained cs) :
    rulesFrom [] (trim cs) = rulesFrom [] cs := by
  obtain ⟨front, back, hfront, hback, hcs⟩ := exists_blanks_trim cs
  obtain ⟨prelude', hrules⟩ := exists_rulesFrom_append h.trim []
  have hchars : ∀ {blanks : List Char}, (∀ c ∈ blanks, isBlank c = true) →
      ∀ c ∈ blanks, isPreludeChar c = true :=
    fun hb c hc => isPreludeChar_of_isBlank (hb c hc)
  have hend : rulesFrom prelude' back = [] := by
    have := rulesFrom_preludeChars (hchars hback) prelude' []
    rwa [List.append_nil, rulesFrom] at this
  have hstar : back.head? ≠ some '*' := by
    intro hs
    have := hback '*' (List.mem_of_mem_head? hs)
    revert this
    decide
  calc rulesFrom [] (trim cs)
      = rulesFrom [] (trim cs ++ back) := by rw [hrules back hstar, hend, List.append_nil]
    _ = rulesFrom ([] ++ front.reverse) (trim cs ++ back) :=
        (rulesFrom_append_blanks (by simpa using hfront) _ _).symm
    _ = rulesFrom [] (front ++ (trim cs ++ back)) := by
        rw [rulesFrom_preludeChars (hchars hfront), List.nil_append, List.append_nil]
    _ = rulesFrom [] cs := by rw [← hcs]

end StyleBundler.Sheet
