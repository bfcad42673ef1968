import StyleBundler.Script.Lexer

/-!
The forms of a lexeme. `Reads prior c cs s` tells, form by form, what a text that goes on as `cs`
behind its first character `c` has to be for the lexeme `s`. What `Lexer.next` reads is of one of
these forms, and it reads nothing else (`reads_iff`), so that what holds of every lexeme is shown by
cases on its form.
-/

namespace StyleBundler.Script

open Lexer

/-- The signs that open a string or a template. -/
def isQuote (c : Char) : Bool := c == '\'' || c == '"' || c == '\x60'

/-- A sign that is a token of its own whatever stands around it. -/
def isSign (c : Char) : Bool :=
  !(isSpace c || c == '/' || isQuote c || c.isDigit || isNameChar c)

/-- A template, without the proof that its text is part of the whole. -/
def Lexer.readTemplate (cs : List Char) : Scan (List (List Char)) := (template cs).1

section Run

variable {α : Type} {p : α → Bool} {run rest : List α}

/-- Members of a class, in front of one that is not, are the longest start of that class. -/
theorem takeWhile_run (hrun : ∀ d ∈ run, p d = true)
    (hrest : ∀ d, rest.head? = some d → p d = false) :
    (run ++ rest).takeWhile p = run ∧ (run ++ rest).dropWhile p = rest := by
  rw [List.takeWhile_append_of_pos hrun, List.dropWhile_append_of_pos hrun]
  cases rest with
  | nil => exact ⟨List.append_nil _, rfl⟩
  | cons d rest => simp [hrest d rfl]

theorem head?_dropWhile {xs : List α} {d : α} (h : (xs.dropWhile p).head? = some d) :
    p d = false := by
  have hnot := List.head?_dropWhile_not p xs
  rw [h] at hnot
  simpa using hnot

theorem exists_run (p : α → Bool) (xs : List α) :
    ∃ run rest, xs = run ++ rest ∧ (∀ d ∈ run, p d = true) ∧
      ∀ d, rest.head? = some d → p d = false :=
  ⟨xs.takeWhile p, xs.dropWhile p, List.takeWhile_append_dropWhile.symm,
    List.all_eq_true.mp List.all_takeWhile, fun _ => head?_dropWhile⟩

end Run

namespace Lexer

/-- A lexeme behind the token `prior` that starts with `c`, in front of which the text goes on. -/
inductive Reads (prior : Option TokenKind) :
    Char → List Char → Scan (Option TokenKind) → Prop
  | space {c : Char} (hc : isSpace c = true) (rest : List Char) :
      Reads prior c rest ⟨none, [c], rest⟩
  | line {text rest : List Char} (htext : '\n' ∉ text)
      (hrest : ∀ d, rest.head? = some d → d = '\n') :
      Reads prior '/' ('/' :: (text ++ rest)) ⟨none, '/' :: '/' :: text, rest⟩
  | block {cs text rest : List Char} (h : blockComment cs = ⟨(), text, rest⟩) :
      Reads prior '/' ('*' :: cs) ⟨none, '/' :: '*' :: text, rest⟩
  | regex {cs text rest : List Char} (hcs : cs.head? ≠ some '/' ∧ cs.head? ≠ some '*')
      (hprior : TokenKind.opensRegex prior = true) (h : Lexer.regex false cs = ⟨(), text, rest⟩) :
      Reads prior '/' cs ⟨some .regex, '/' :: text, rest⟩
  | slash {rest : List Char} (hrest : rest.head? ≠ some '/' ∧ rest.head? ≠ some '*')
      (hprior : TokenKind.opensRegex prior = false) :
      Reads prior '/' rest ⟨some (.punct '/'), ['/'], rest⟩
  | quoted {c : Char} {cs value text rest : List Char} (hc : c = '\'' ∨ c = '"')
      (h : Lexer.quoted c cs = ⟨value, text, rest⟩) :
      Reads prior c cs ⟨some (.str (String.ofList value)), c :: text, rest⟩
  | template {cs text rest : List Char} {chunks : List (List Char)}
      (h : readTemplate cs = ⟨chunks, text, rest⟩) :
      Reads prior '\x60' cs ⟨some (.template (chunks.map String.ofList)), '\x60' :: text, rest⟩
  | number {c : Char} {run rest : List Char} (hc : c.isDigit = true)
      (hrun : ∀ d ∈ run, isNumberChar d = true)
      (hrest : ∀ d, rest.head? = some d → isNumberChar d = false) :
      Reads prior c (run ++ rest) ⟨some .number, c :: run, rest⟩
  | name {c : Char} {run rest : List Char} (hdigit : c.isDigit = false)
      (hname : ∀ d ∈ c :: run, isNameChar d = true)
      (hrest : ∀ d, rest.head? = some d → isNameChar d = false) :
      Reads prior c (run ++ rest) ⟨some (.ident (String.ofList (c :: run))), c :: run, rest⟩
  | sign {c : Char} (hc : isSign c = true) (rest : List Char) :
      Reads prior c rest ⟨some (.punct c), [c], rest⟩

variable {prior prior' : Option TokenKind} {c : Char} {cs : List Char}
  {s : Scan (Option TokenKind)}

theorem lineComment_run {text rest : List Char} (htext : '\n' ∉ text)
    (hrest : ∀ d, rest.head? = some d → d = '\n') :
    lineComment (text ++ rest) = ⟨(), text, rest⟩ := by
  obtain ⟨htake, hdrop⟩ := takeWhile_run (p := (· != '\n'))
    (fun d hd => bne_iff_ne.mpr fun heq => htext (heq ▸ hd)) fun d hd => by simp [hrest d hd]
  rw [lineComment, htake, hdrop]

/-- No name starts with the sign of another form. -/
theorem next_isNameChar (hc : isNameChar c = true) (prior : Option TokenKind) (cs : List Char) :
    next prior c cs =
      if c.isDigit then
        ⟨some .number, c :: cs.takeWhile isNumberChar, cs.dropWhile isNumberChar⟩
      else
        ⟨some (.ident (String.ofList (c :: cs.takeWhile isNameChar))),
          c :: cs.takeWhile isNameChar, cs.dropWhile isNameChar⟩ := by
  have hne : ∀ d : Char, isNameChar d = false → c ≠ d := by
    rintro d hd rfl
    rw [hc] at hd
    cases hd
  have hspace : isSpace c = false := by
    simp [isSpace, hne ' ' (by decide), hne '\t' (by decide), hne '\n' (by decide),
      hne '\r' (by decide), hne '\x0c' (by decide)]
  simp only [next, hspace, hne '/' (by decide), hne '\'' (by decide), hne '"' (by decide),
    hne '\x60' (by decide), hc, false_and, or_self, if_false, if_true, Bool.false_eq_true]

theorem isNameChar_of_isDigit (hc : c.isDigit = true) : isNameChar c = true := by
  simp [isNameChar, Char.isAlphanum, hc]

theorem Reads.next_eq (h : Reads prior c cs s) : next prior c cs = s := by
  cases h with
  | space hc => rw [next, if_pos hc]
  | @line text rest htext hrest =>
      have hslash : '\n' ∉ '/' :: text := by simpa using htext
      have hread := lineComment_run hslash hrest
      rw [List.cons_append] at hread
      rw [next, if_neg (by decide), if_pos ⟨rfl, rfl⟩, hread]
      rfl
  | block h =>
      rw [next, if_neg (by decide), if_neg (by simp), if_pos ⟨rfl, rfl⟩, List.tail_cons, h]
      rfl
  | regex hcs hprior h =>
      rw [next, if_neg (by decide), if_neg (by simp [hcs]), if_neg (by simp [hcs]),
        if_pos ⟨rfl, hprior⟩, h]
      rfl
  | slash hrest hprior => simp [next, isSpace, isNameChar, hrest, hprior]
  | quoted hc h => rcases hc with rfl | rfl <;> simp [next, isSpace, h, Scan.lead]
  | template h =>
      rw [readTemplate] at h
      simp [next, isSpace, h, Scan.lead]
  | number hc hrun hrest =>
      obtain ⟨htake, hdrop⟩ := takeWhile_run hrun hrest
      rw [next_isNameChar (isNameChar_of_isDigit hc), if_pos hc, htake, hdrop]
  | name hdigit hname hrest =>
      obtain ⟨hc, hrun⟩ := List.forall_mem_cons.mp hname
      obtain ⟨htake, hdrop⟩ := takeWhile_run hrun hrest
      rw [next_isNameChar hc, hdigit, if_neg Bool.false_ne_true, htake, hdrop]
  | sign hc =>
      simp only [isSign, isQuote, Bool.not_eq_true', Bool.or_eq_false_iff,
        beq_eq_false_iff_ne] at hc
      obtain ⟨⟨⟨⟨hspace, hslash⟩, ⟨hsingle, hdouble⟩, htick⟩, hdigit⟩, hname⟩ := hc
      simp [next, hspace, hslash, hsingle, hdouble, htick, hdigit, hname]

/-- A slash opens a comment or a regular expression, or stands for itself. -/
theorem exists_reads_slash (prior : Option TokenKind) (cs : List Char) :
    ∃ s, Reads prior '/' cs s := by
  by_cases hline : cs.head? = some '/'
  · obtain ⟨cs, rfl⟩ := List.head?_eq_some_iff.mp hline
    obtain ⟨text, rest, rfl, htext, hrest⟩ := exists_run (· != '\n') cs
    exact ⟨_, .line (fun hmem => by simpa using htext _ hmem) fun d hd => by simpa using hrest d hd⟩
  by_cases hblock : cs.head? = some '*'
  · obtain ⟨cs, rfl⟩ := List.head?_eq_some_iff.mp hblock
    exact ⟨_, .block rfl⟩
  cases hprior : TokenKind.opensRegex prior with
  | true => exact ⟨_, .regex ⟨hline, hblock⟩ hprior rfl⟩
  | false => exact ⟨_, .slash ⟨hline, hblock⟩ hprior⟩

theorem exists_reads (prior : Option TokenKind) (c : Char) (cs : List Char) :
    ∃ s, Reads prior c cs s := by
  by_cases hspace : isSpace c = true
  · exact ⟨_, .space hspace cs⟩
  by_cases hslash : c = '/'
  · exact hslash ▸ exists_reads_slash prior cs
  by_cases hquote : c = '\'' ∨ c = '"'
  · exact ⟨_, .quoted hquote rfl⟩
  by_cases htick : c = '\x60'
  · exact htick ▸ ⟨_, .template rfl⟩
  by_cases hdigit : c.isDigit = true
  · obtain ⟨run, rest, rfl, hrun, hrest⟩ := exists_run isNumberChar cs
    exact ⟨_, .number hdigit hrun hrest⟩
  by_cases hname : isNameChar c = true
  · obtain ⟨run, rest, rfl, hrun, hrest⟩ := exists_run isNameChar cs
    exact ⟨_, .name (by simpa using hdigit) (List.forall_mem_cons.mpr ⟨hname, hrun⟩) hrest⟩
  · refine ⟨_, .sign ?_ cs⟩
    simp only [not_or] at hquote
    simp [isSign, isQuote, hspace, hslash, hquote, htick, hdigit, hname]

theorem reads_iff : Reads prior c cs s ↔ next prior c cs = s := by
  refine ⟨Reads.next_eq, ?_⟩
  rintro rfl
  obtain ⟨s, hs⟩ := exists_reads prior c cs
  rwa [hs.next_eq]

theorem reads_next (prior : Option TokenKind) (c : Char) (cs : List Char) :
    Reads prior c cs (next prior c cs) := reads_iff.mpr rfl

/-- The token in front matters only for a slash, which is one or opens a regular expression. -/
theorem Reads.of_prior (h : Reads prior c cs s)
    (hregex : s.value = some .regex → TokenKind.opensRegex prior' = true)
    (hslash : s.value = some (.punct '/') → TokenKind.opensRegex prior' = false) :
    Reads prior' c cs s := by
  cases h with
  | space hc => exact .space hc cs
  | line htext hrest => exact .line htext hrest
  | block h => exact .block h
  | regex hcs _ h => exact .regex hcs (hregex rfl) h
  | slash hrest _ => exact .slash hrest (hslash rfl)
  | quoted hc h => exact .quoted hc h
  | template h => exact .template h
  | number hc hrun hrest => exact .number hc hrun hrest
  | name hdigit hname hrest => exact .name hdigit hname hrest
  | sign hc => exact .sign hc cs

theorem Reads.opensRegex (h : Reads prior c cs s) :
    (s.value = some .regex → TokenKind.opensRegex prior = true) ∧
      (s.value = some (.punct '/') → TokenKind.opensRegex prior = false) := by
  cases h with
  | regex _ hprior => exact ⟨fun _ => hprior, nofun⟩
  | slash _ hprior => exact ⟨nofun, fun _ => hprior⟩
  | sign hc =>
      refine ⟨nofun, fun hslash => ?_⟩
      cases hslash
      cases hc
  | space | line | block | quoted | template | number | name => exact ⟨nofun, nofun⟩

theorem Reads.exists_text (h : Reads prior c cs s) : ∃ taken, s.text = c :: taken := by
  cases h <;> exact ⟨_, rfl⟩

theorem text_next_ne_nil (prior : Option TokenKind) (c : Char) (cs : List Char) :
    (next prior c cs).text ≠ [] := by
  obtain ⟨taken, htext⟩ := (reads_next prior c cs).exists_text
  rw [htext]
  exact List.cons_ne_nil c taken

end Lexer

theorem exists_reads_of_mem_lexemes {prior : Option TokenKind} {cs : List Char} {l : Lexeme}
    (h : l ∈ lexemes prior cs) : ∃ prior c cs s, Reads prior c cs s ∧ l = ⟨s.value, s.text⟩ := by
  fun_induction lexemes prior cs with
  | case1 => cases h
  | case2 prior c cs _ ih =>
      rcases List.mem_cons.mp h with rfl | h
      · exact ⟨prior, c, cs, _, reads_next prior c cs, rfl⟩
      · exact ih h

end StyleBundler.Script
