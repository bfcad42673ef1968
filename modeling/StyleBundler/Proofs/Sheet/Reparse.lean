import Mathlib.Data.List.Infix
import StyleBundler.Proofs.Sheet.Rule
import StyleBundler.Sheet.Extraction

/-!
Rules printed and read again. What the rules of a text print is not that text: blanks,
empty statements and what follows the last rule are gone. But each rule prints a text that
is read as that rule and no further (`ReadsBack`), so that rules printed one behind the
other, and rules inserted one by one, are the rules that were read.
-/

namespace StyleBundler.Sheet

open Text

/-- Every comment of the text starts in a block. -/
def CommentsInBlocks (css : List Char) : Prop :=
  ∀ front ∈ css.inits, readBraces .plain 0 front ≠ some (.comment, 0)

instance (css : List Char) : Decidable (CommentsInBlocks css) :=
  inferInstanceAs (Decidable (∀ front ∈ css.inits, _))

section CommentsInBlocks

variable {css : List Char}

theorem CommentsInBlocks.of_append (closed : List Char) (h : CommentsInBlocks (closed ++ css))
    (hread : readBraces .plain 0 closed = some (.plain, 0)) : CommentsInBlocks css := by
  intro front hfront
  have hin : closed ++ front ∈ (closed ++ css).inits := by
    rw [List.mem_inits] at hfront ⊢
    exact (List.prefix_append_right_inj closed).mpr hfront
  simpa only [readBraces_append, hread, Option.bind_some] using h _ hin

theorem CommentsInBlocks.of_string {quote : Char} (hq : quote = '"' ∨ quote = '\'')
    {text : List Char} (ht : ClosesString quote text)
    (h : CommentsInBlocks (quote :: (text ++ css))) : CommentsInBlocks css := by
  apply of_append (quote :: text) h
  rcases hq with rfl | rfl <;> exact ht.read 0

theorem CommentsInBlocks.of_block {body : List Char} (hbody : SelfContained body)
    (h : CommentsInBlocks ('{' :: (body ++ '}' :: css))) : CommentsInBlocks css := by
  apply of_append ('{' :: (body ++ ['}']))
  · simpa using h
  · obtain ⟨mode, hm, hread⟩ := selfContained_iff.mp hbody
    have hopen : readBraces .plain 1 body = some (mode, 1) := readBraces_add hread 1
    change readBraces .plain 1 (body ++ ['}']) = _
    rw [readBraces_append, hopen]
    simp [readBraces, hm]

theorem CommentsInBlocks.of_cons {c : Char} (h : CommentsInBlocks (c :: css))
    (hquote : ¬(c = '"' ∨ c = '\'')) (hopen : c ≠ '{') (hclose : c ≠ '}')
    (hcomment : c = '/' → css.head? ≠ some '*') : CommentsInBlocks css := by
  by_cases hslash : c = '/'
  · -- Behind the slash the text reads on as if there were none.
    subst hslash
    intro front hfront
    cases front with
    | nil => simp [readBraces]
    | cons d front =>
        have hprefix := (List.mem_inits _ _).mp hfront
        have hin : '/' :: d :: front ∈ ('/' :: css).inits := by
          rw [List.mem_inits]
          exact List.cons_prefix_cons.mpr ⟨rfl, hprefix⟩
        have hd : d ≠ '*' := by
          rintro rfl
          obtain ⟨tail, rfl⟩ := hprefix
          exact hcomment rfl rfl
        rw [← readBraces_slash hd]
        exact h _ hin
  · apply of_append [c] h
    simp [readBraces, Mode.isCode, Mode.next, Mode.ofCode, hquote, hopen, hclose, hslash]

end CommentsInBlocks

/-- What is read of a prelude, the last character first: signs that only add to it, where
no slash and star meet, and strings. -/
inductive IsPrelude : List Char → Prop
  | nil : IsPrelude []
  | sign {c : Char} {prelude : List Char} (hprelude : IsPrelude prelude)
      (hc : isPreludeChar c = true ∨ c = '/')
      (hcomment : prelude.head? = some '/' → c ≠ '*') : IsPrelude (c :: prelude)
  | string {quote : Char} {text prelude : List Char} (hprelude : IsPrelude prelude)
      (hq : quote = '"' ∨ quote = '\'') (ht : ClosesString quote text) :
      IsPrelude (text.reverse ++ quote :: prelude)

theorem rulesFrom_isPrelude {read : List Char} (h : IsPrelude read) (prelude rest : List Char)
    (hcomment : read.head? = some '/' → rest.head? ≠ some '*') :
    rulesFrom prelude (read.reverse ++ rest) = rulesFrom (read ++ prelude) rest := by
  induction h generalizing rest with
  | nil => rfl
  | @sign c read _ hc hstar ih =>
      have hnext : read.head? = some '/' → (c :: rest).head? ≠ some '*' := by
        simpa using hstar
      rw [List.reverse_cons, List.append_assoc, List.singleton_append, ih _ hnext]
      rcases hc with hc | rfl
      · obtain ⟨hslash, hdouble, hsingle, hsemicolon, hopen⟩ := isPreludeChar_iff.mp hc
        exact rulesFrom_other (by simp [hdouble, hsingle]) hsemicolon hopen
          (fun h => absurd h hslash) _
      · exact rulesFrom_other (by decide) (by decide) (by decide)
          (fun _ => hcomment rfl) _
  | @string quote text read _ hq ht ih =>
      have hnext : read.head? = some '/' → (quote :: (text ++ rest)).head? ≠ some '*' := by
        rcases hq with rfl | rfl <;> simp
      have hsplit : (text.reverse ++ quote :: read).reverse ++ rest =
          read.reverse ++ quote :: (text ++ rest) := by
        simp
      rw [hsplit, ih _ hnext, rulesFrom_string hq ht, List.append_assoc, List.cons_append]

theorem ne_quote_of_isBlank {c quote : Char} (hc : isBlank c = true)
    (hq : quote = '"' ∨ quote = '\'') : c ≠ quote := by
  obtain ⟨-, hdouble, hsingle, -, -⟩ := isPreludeChar_iff.mp (isPreludeChar_of_isBlank hc)
  rcases hq with rfl | rfl
  · exact hdouble
  · exact hsingle

/-- A blank at the end of a prelude is none of a string's. -/
theorem IsPrelude.of_cons_blank {c : Char} (hc : isBlank c = true) {prelude : List Char}
    (h : IsPrelude (c :: prelude)) : IsPrelude prelude := by
  generalize hread : c :: prelude = read at h
  cases h with
  | nil => cases hread
  | sign hprelude _ _ =>
      cases hread
      exact hprelude
  | @string quote text _ _ hq ht =>
      have hlast : text.reverse.head? = some quote := by rw [List.head?_reverse, ht.last]
      obtain ⟨front, hfront⟩ := List.head?_eq_some_iff.mp hlast
      rw [hfront] at hread
      exact absurd (List.cons.inj hread).1 (ne_quote_of_isBlank hc hq)

theorem IsPrelude.of_concat_blank {c : Char} (hc : isBlank c = true) {prelude : List Char}
    (h : IsPrelude (prelude ++ [c])) : IsPrelude prelude := by
  generalize hread : prelude ++ [c] = read at h
  induction h generalizing prelude with
  | nil => simp at hread
  | @sign d read hprelude hd hstar ih =>
      cases prelude with
      | nil => exact .nil
      | cons e prelude =>
          obtain ⟨rfl, htail⟩ := List.cons.inj hread
          have htail : prelude ++ [c] = read := htail
          refine .sign (ih htail) hd fun hhead => hstar ?_
          rw [← htail, List.head?_append, hhead]
          rfl
  | @string quote text read hprelude hq ht ih =>
      -- The quote is no blank, so the blank is the first sign that was read before it.
      rcases List.eq_nil_or_concat' read with rfl | ⟨front, d, rfl⟩
      · have hlast : c = quote := by simpa using congrArg List.getLast? hread
        exact absurd hlast (ne_quote_of_isBlank hc hq)
      · rw [← List.cons_append, ← List.append_assoc] at hread
        obtain ⟨rfl, hd⟩ := List.append_inj' hread rfl
        obtain rfl := (List.cons.inj hd).1
        exact .string (ih rfl) hq ht

theorem IsPrelude.of_blanks_append {blanks : List Char} (hb : ∀ c ∈ blanks, isBlank c = true)
    {prelude : List Char} (h : IsPrelude (blanks ++ prelude)) : IsPrelude prelude := by
  induction blanks with
  | nil => exact h
  | cons c blanks ih =>
      exact ih (fun c hc => hb c (List.mem_cons_of_mem _ hc)) (h.of_cons_blank (hb c (by simp)))

theorem IsPrelude.of_append_blanks {blanks : List Char} (hb : ∀ c ∈ blanks, isBlank c = true)
    {prelude : List Char} (h : IsPrelude (prelude ++ blanks)) : IsPrelude prelude := by
  induction blanks generalizing prelude with
  | nil => simpa using h
  | cons c blanks ih =>
      have hblank : IsPrelude (prelude ++ [c]) := by
        apply ih (fun c hc => hb c (List.mem_cons_of_mem _ hc))
        simpa using h
      exact hblank.of_concat_blank (hb c (by simp))

theorem IsPrelude.trim {prelude : List Char} (h : IsPrelude prelude) :
    IsPrelude (Text.trim prelude.reverse).reverse := by
  obtain ⟨front, back, hfront, hback, hprelude⟩ := exists_blanks_trim prelude.reverse
  have hread :
      prelude = back.reverse ++ ((Text.trim prelude.reverse).reverse ++ front.reverse) := by
    simpa using congrArg List.reverse hprelude
  rw [hread] at h
  exact (h.of_blanks_append (by simpa using hback)).of_append_blanks (by simpa using hfront)

/-- A rule whose text is read as that rule, whatever stands behind it. -/
def ReadsBack (r : Rule) : Prop :=
  ∀ rest, rulesFrom [] (r.text.toList ++ rest) = r :: rulesFrom [] rest

theorem toList_text_statement (prelude : List Char) :
    (Rule.text ⟨String.ofList prelude, none⟩).toList = prelude ++ [';'] := by
  have hend : ";".toList = [';'] := rfl
  simp only [Rule.text, String.toList_append, String.toList_ofList, hend]

theorem toList_text_block (prelude body : List Char) :
    (Rule.text ⟨String.ofList prelude, some (String.ofList body)⟩).toList =
      prelude ++ ' ' :: '{' :: (body ++ ['}']) := by
  have hopen : " \x7b".toList = [' ', '{'] := rfl
  have hclose : "\x7d".toList = ['}'] := rfl
  simp only [Rule.text, String.toList_append, String.toList_ofList, hopen, hclose,
    List.append_assoc, List.cons_append, List.nil_append]

theorem readsBack_statement {prelude : List Char} (h : IsPrelude prelude) {r : Rule}
    (hr : r ∈ statement? prelude.reverse) : ReadsBack r := by
  simp only [statement?] at hr
  split at hr
  · cases hr
  · next hne =>
      obtain rfl := Option.some.inj hr
      intro rest
      have hread := rulesFrom_isPrelude h.trim [] (';' :: rest) (by simp)
      rw [List.reverse_reverse, List.append_nil, rulesFrom_semicolon, List.reverse_reverse,
        statement?] at hread
      simpa [toList_text_statement, trim_trim, hne] using hread

theorem readsBack_blockRule {prelude body : List Char} (h : IsPrelude prelude)
    (hbody : SelfContained body) : ReadsBack (blockRule prelude.reverse body) := by
  intro rest
  have hblank : IsPrelude (' ' :: (trim prelude.reverse).reverse) :=
    .sign h.trim (.inl rfl) (fun _ => by decide)
  have hread := rulesFrom_isPrelude hblank [] ('{' :: (trim body ++ '}' :: rest)) (by simp)
  have hspace : ∀ c ∈ [' '], isBlank c = true := List.all_eq_true.mp (by decide)
  rw [List.append_nil, rulesFrom_block hbody.trim, List.reverse_cons, List.reverse_reverse,
    blockRule, trim_append_blanks hspace, trim_trim, trim_trim] at hread
  simpa [toList_text_block, blockRule] using hread

/-- Every rule that is read behind a prelude prints a text that is read back. -/
theorem readsBack_of_mem {prelude css : List Char} (hprelude : IsPrelude prelude)
    (hstar : prelude.head? = some '/' → css.head? ≠ some '*') (h : SelfContained css)
    (hc : CommentsInBlocks css) : ∀ r ∈ rulesFrom prelude css, ReadsBack r := by
  -- Along the reading: what is left to read stays self-contained, with its comments in blocks.
  fun_induction rulesFrom prelude css with
  | case1 => simp
  | case2 prelude css _ ih => exact absurd rfl (hc ['/', '*'] (by simp))
  | case3 prelude c css _ hquote _ ih =>
      obtain ⟨text, tail, rfl, htext, htail⟩ := h.of_string hquote
      rw [htext.split] at ih ⊢
      have hlast : (text.reverse ++ c :: prelude).head? = some c := by
        rw [List.head?_append, List.head?_reverse, htext.last]
        rfl
      refine ih (hprelude.string hquote htext) ?_ htail (hc.of_string hquote htext)
      rw [hlast]
      rcases hquote with rfl | rfl <;> simp
  | case4 prelude css _ hquote ih =>
      have htail : SelfContained css := h.of_cons hquote (by decide) (by simp)
      have hcomments : CommentsInBlocks css :=
        hc.of_cons hquote (by decide) (by decide) (by simp)
      intro r hr
      rcases List.mem_append.mp hr with hr | hr
      · exact readsBack_statement hprelude (Option.mem_toList.mp hr)
      · exact ih .nil (by simp) htail hcomments r hr
  | case5 prelude css _ _ _ _ ih =>
      obtain ⟨body, tail, rfl, hbody, htail⟩ := h.of_brace
      rw [splitBlock_selfContained hbody] at ih ⊢
      rw [List.forall_mem_cons]
      exact ⟨readsBack_blockRule hprelude hbody, ih .nil (by simp) htail (hc.of_block hbody)⟩
  | case6 prelude c css hcomment hquote hsemicolon hbrace ih =>
      have hclose : c ≠ '}' := by
        rintro rfl
        rcases h with h | h <;> cases h
      have hslash : c = '/' → css.head? ≠ some '*' := by
        rintro rfl hhead
        obtain ⟨tail, rfl⟩ := List.head?_eq_some_iff.mp hhead
        exact hcomment tail rfl rfl
      have hsign : isPreludeChar c = true ∨ c = '/' := by
        by_cases hc : c = '/'
        · exact .inr hc
        · obtain ⟨hdouble, hsingle⟩ := not_or.mp hquote
          exact .inl (isPreludeChar_iff.mpr ⟨hc, hdouble, hsingle, hsemicolon, hbrace⟩)
      refine ih (.sign hprelude hsign ?_) ?_ (h.of_cons hquote hbrace hslash)
        (hc.of_cons hquote hbrace hclose hslash)
      · simpa using hstar
      · simpa using hslash

theorem ReadsBack.parse_text {r : Rule} (h : ReadsBack r) : parse r.text = [r] := by
  have hread := h []
  rwa [List.append_nil, rulesFrom] at hread

theorem rulesFrom_texts {rules : List Rule} (h : ∀ r ∈ rules, ReadsBack r) :
    rulesFrom [] (rules.flatMap fun r => r.text.toList) = rules := by
  induction rules with
  | nil => simp [rulesFrom]
  | cons r rules ih =>
      rw [List.flatMap_cons, h r (by simp), ih fun r hr => h r (List.mem_cons_of_mem _ hr)]

/-- A rule inserted behind those of a sheet. The text must be that of one rule. -/
def insertRule? (sheet : List Rule) (text : String) : Option (List Rule) :=
  match parse text with
  | [r] => some (sheet ++ [r])
  | _ => none

/-- A sheet made anew of the texts of rules, one inserted behind the other. -/
def rebuild? (rules : List Rule) : Option (List Rule) :=
  rules.foldlM (fun sheet r => insertRule? sheet r.text) []

theorem rebuild?_eq_some {rules : List Rule} (h : ∀ r ∈ rules, ReadsBack r) :
    rebuild? rules = some rules := by
  have hfrom : ∀ sheet : List Rule,
      rules.foldlM (fun sheet r => insertRule? sheet r.text) sheet = some (sheet ++ rules) := by
    induction rules with
    | nil => simp
    | cons r rules ih =>
        intro sheet
        have hinsert : insertRule? sheet r.text = some (sheet ++ [r]) := by
          rw [insertRule?, (h r (by simp)).parse_text]
        have hrest := ih (fun r hr => h r (List.mem_cons_of_mem _ hr)) (sheet ++ [r])
        simpa [hinsert] using hrest
  exact hfrom []

/-- The sheet of a name, made anew of the rules in the first block that holds it. -/
def extractByRule? (rules : List Rule) (name : String) : Option (List Rule) :=
  (rules.findSome? (blockNamed? name)).bind fun block => rebuild? (parse block)

/-- The rules of a stylesheet, printed one behind the other, are read as the same rules, and
so are they when each is inserted by its text: what is extracted rule by rule from a block
is what the block holds. -/
theorem parse_texts {css : String} (h : SelfContained css.toList)
    (hc : CommentsInBlocks css.toList) :
    parse (String.join ((parse css).map Rule.text)) = parse css ∧
    rebuild? (parse css) = some (parse css) ∧
    ∀ (rules : List Rule) (name : String), rules.findSome? (blockNamed? name) = some css →
      extractByRule? rules name = extract? rules name := by
  have hrules : ∀ r ∈ parse css, ReadsBack r := readsBack_of_mem .nil (by simp) h hc
  have hrebuild : rebuild? (parse css) = some (parse css) := rebuild?_eq_some hrules
  refine ⟨?_, hrebuild, fun rules name hfind => ?_⟩
  · have htexts : (String.join ((parse css).map Rule.text)).toList =
        (parse css).flatMap fun r => r.text.toList := by
      rw [String.toList_join, List.flatMap_map]
    rw [parse, htexts, rulesFrom_texts hrules]
  · simp [extractByRule?, extract?, hfind, hrebuild]

theorem parse_texts_nested :
    let css := "@import url(';');; .a::after \x7b content: '\x7d' /* ; */ \x7d\n\x7b \x7d x"
    SelfContained css.toList ∧ CommentsInBlocks css.toList ∧
      parse (String.join ((parse css).map Rule.text)) = parse css ∧
      rebuild? (parse css) = some (parse css) ∧
      extractByRule? [⟨"@supports sheet(a.css)", some css⟩] "a.css" =
        extract? [⟨"@supports sheet(a.css)", some css⟩] "a.css" := by
  intro css
  have h : SelfContained css.toList := by decide +kernel
  have hc : CommentsInBlocks css.toList := by decide +kernel
  obtain ⟨hparse, hrebuild, hextract⟩ := parse_texts h hc
  exact ⟨h, hc, hparse, hrebuild, hextract _ _ (by decide +kernel)⟩

end StyleBundler.Sheet
