import Mathlib.Data.List.Forall2
import StyleBundler.Proofs.Script.Lexing

/-!
Lexing a text again after some of its literals were replaced. A lexeme does not depend on
what stands behind it, except for the sign that ends it, and of what stands before it
matters only whether a slash would open a regular expression. So when string and template
literals give way to plain strings, all other lexemes are found again as they were.
-/

namespace StyleBundler.Script

/-- Two texts start alike: with the same character, or each with some quote. -/
inductive SameStart : List Char → List Char → Prop
  | nil : SameStart [] []
  | head (c : Char) (cs ds : List Char) : SameStart (c :: cs) (c :: ds)
  | quote {c d : Char} (hc : isQuote c = true) (hd : isQuote d = true) (cs ds : List Char) :
      SameStart (c :: cs) (d :: ds)

namespace SameStart

theorem append {cs ds : List Char} (h : SameStart cs ds) (front : List Char) :
    SameStart (front ++ cs) (front ++ ds) := by
  cases front with
  | nil => exact h
  | cons c front => exact .head c _ _

/-- No sign but a quote tells the two texts apart. -/
theorem head?_iff {cs ds : List Char} (h : SameStart cs ds) {c : Char} (hc : isQuote c = false) :
    ds.head? = some c ↔ cs.head? = some c := by
  have hne : ∀ {d : Char}, isQuote d = true → d ≠ c := by
    rintro d hd rfl
    rw [hc] at hd
    cases hd
  cases h with
  | nil => rfl
  | head d cs ds => rfl
  | quote hd he cs ds => simp [hne hd, hne he]

theorem eq_nil {ds : List Char} (h : SameStart [] ds) : ds = [] := by
  cases h
  rfl

theorem exists_cons {c : Char} {cs ds : List Char} (h : SameStart (c :: cs) ds)
    (hc : isQuote c = false) : ∃ ds', ds = c :: ds' := by
  cases h with
  | head c cs ds => exact ⟨ds, rfl⟩
  | quote hc' hd cs ds =>
      rw [hc] at hc'
      cases hc'

/-- What holds of all quotes or of none holds of the first signs of both texts. -/
theorem forall_head? {P : Char → Prop} {cs ds : List Char} (h : SameStart cs ds)
    (hquote : ∀ {c d : Char}, isQuote c = true → isQuote d = true → P c → P d)
    (hcs : ∀ c, cs.head? = some c → P c) : ∀ d, ds.head? = some d → P d := by
  cases h with
  | nil => exact hcs
  | head => exact hcs
  | quote hc hd =>
      intro e he
      cases he
      exact hquote hc hd (hcs _ rfl)

end SameStart

namespace Lexer

theorem quoted_close (quote : Char) (cs : List Char) :
    quoted quote (quote :: cs) = ⟨[], [quote], cs⟩ := by
  cases cs <;> simp [quoted]

theorem quoted_newline {quote : Char} (h : '\n' ≠ quote) (cs : List Char) :
    quoted quote ('\n' :: cs) = ⟨[], [], '\n' :: cs⟩ := by
  cases cs <;> simp [quoted, h]

theorem quoted_other {quote c : Char} (hc : c ≠ quote) (hn : c ≠ '\n') (hb : c ≠ '\\')
    (cs : List Char) :
    quoted quote (c :: cs) =
      ⟨c :: (quoted quote cs).value, c :: (quoted quote cs).text, (quoted quote cs).rest⟩ := by
  cases cs <;> simp [quoted, hc, hn, hb]

theorem quoted_backslash {quote : Char} (h : '\\' ≠ quote) (e : Char) (cs : List Char) :
    quoted quote ('\\' :: e :: cs) =
      ⟨unescape e ++ (quoted quote cs).value, '\\' :: e :: (quoted quote cs).text,
        (quoted quote cs).rest⟩ := by
  rw [quoted, if_neg h, if_neg (by decide), if_pos rfl]

theorem quoted_append {quote : Char} {cs ds : List Char}
    (h : SameStart (quoted quote cs).rest ds) :
    quoted quote ((quoted quote cs).text ++ ds) =
      ⟨(quoted quote cs).value, (quoted quote cs).text, ds⟩ := by
  fun_induction quoted quote cs with
  | case1 =>
      rw [h.eq_nil]
      rfl
  | case2 cs => exact quoted_close quote ds
  | case3 cs hc =>
      obtain ⟨ds', rfl⟩ := h.exists_cons (by decide)
      exact quoted_newline hc ds'
  | case4 hc hn =>
      rw [h.eq_nil]
      simp [quoted, hc]
  | case5 e cs s hc hn ih =>
      simp only [List.cons_append, quoted, hc, hn, if_false, if_true]
      rw [ih h]
  | case6 c cs hc hn hb s ih =>
      rw [List.cons_append, quoted_other hc hn hb, ih h]

theorem lineComment_append {cs ds : List Char} (h : SameStart (lineComment cs).rest ds) :
    lineComment ((lineComment cs).text ++ ds) = ⟨(), (lineComment cs).text, ds⟩ := by
  refine lineComment_run (fun hmem => ?_) (h.forall_head? ?_ fun d hd => ?_)
  · simpa using List.all_eq_true.mp List.all_takeWhile _ hmem
  · rintro c d hc - rfl
    cases hc
  · simpa using head?_dropWhile hd

/-- Behind what a scanner took, the text starts as it did before. -/
theorem head?_append {cs text rest ds : List Char} (hsplit : Splits cs text rest)
    (h : SameStart rest ds) {c : Char} (hc : isQuote c = false) :
    (text ++ ds).head? = some c ↔ cs.head? = some c := by
  rw [← hsplit]
  exact (h.append text).head?_iff hc

theorem blockComment_other {c : Char} {cs : List Char} (h : ¬(c = '*' ∧ cs.head? = some '/')) :
    blockComment (c :: cs) = ⟨(), c :: (blockComment cs).text, (blockComment cs).rest⟩ := by
  rw [blockComment]
  rintro ds rfl rfl
  exact h ⟨rfl, rfl⟩

theorem blockComment_append {cs ds : List Char} (h : SameStart (blockComment cs).rest ds) :
    blockComment ((blockComment cs).text ++ ds) = ⟨(), (blockComment cs).text, ds⟩ := by
  fun_induction blockComment cs with
  | case1 =>
      rw [h.eq_nil]
      rfl
  | case2 cs => rfl
  | case3 c cs hc s ih =>
      have hother : ¬(c = '*' ∧ ((blockComment cs).text ++ ds).head? = some '/') := by
        rintro ⟨rfl, hhead⟩
        rw [head?_append (blockComment_splits cs) h (by decide)] at hhead
        obtain ⟨rest, rfl⟩ := List.head?_eq_some_iff.mp hhead
        exact hc rest rfl rfl
      rw [List.cons_append, blockComment_other hother, ih h]

theorem regex_newline (inClass : Bool) (cs : List Char) :
    regex inClass ('\n' :: cs) = ⟨(), [], '\n' :: cs⟩ := by
  cases cs <;> simp [regex]

theorem regex_close (cs : List Char) :
    regex false ('/' :: cs) =
      ⟨(), '/' :: cs.takeWhile Char.isAlpha, cs.dropWhile Char.isAlpha⟩ := by
  cases cs <;> simp [regex]

theorem regex_other {inClass : Bool} {c : Char} (hn : c ≠ '\n') (hb : c ≠ '\\')
    (hs : ¬(decide (c = '/') && !inClass) = true) (cs : List Char) :
    regex inClass (c :: cs) =
      let s := regex (if c = '[' then true else if c = ']' then false else inClass) cs
      ⟨(), c :: s.text, s.rest⟩ := by
  cases cs <;> simp only [regex, hn, hb, hs, if_false] <;> rfl

theorem isAlpha_of_isQuote (c : Char) (h : isQuote c = true) : c.isAlpha = false := by
  simp only [isQuote, Bool.or_eq_true, beq_iff_eq] at h
  rcases h with (rfl | rfl) | rfl <;> rfl

theorem regex_append {inClass : Bool} {cs ds : List Char}
    (h : SameStart (regex inClass cs).rest ds) :
    regex inClass ((regex inClass cs).text ++ ds) = ⟨(), (regex inClass cs).text, ds⟩ := by
  fun_induction regex inClass cs with
  | case1 =>
      rw [h.eq_nil]
      rfl
  | case2 inClass cs =>
      obtain ⟨ds', rfl⟩ := h.exists_cons (by decide)
      exact regex_newline inClass ds'
  | case3 inClass hn =>
      rw [h.eq_nil]
      rfl
  | case4 inClass e cs s hn ih =>
      simp only [List.cons_append, regex, hn, if_false, if_true]
      rw [ih h]
  | case5 inClass c cs hn hb hs =>
      obtain ⟨hc, hclass⟩ : c = '/' ∧ inClass = false := by simpa using hs
      subst hc hclass
      obtain ⟨htake, hdrop⟩ := takeWhile_run (p := Char.isAlpha)
        (List.all_eq_true.mp (List.all_takeWhile (l := cs)))
        (h.forall_head? (fun _ hd _ => isAlpha_of_isQuote _ hd) fun _ => head?_dropWhile)
      simp only [List.cons_append, regex_close, htake, hdrop]
  | case6 inClass c cs hn hb hs s ih =>
      have hrest := ih h
      rw [List.cons_append, regex_other hn hb hs]
      simp only [s, hrest]

/-- The code of an interpolation, without that proof. -/
def readCode (depth : Nat) (cs : List Char) : Scan Unit := (interpolation depth cs).1

theorem readTemplate_splits (cs : List Char) :
    Splits cs (readTemplate cs).text (readTemplate cs).rest := (template cs).2

theorem readCode_splits (depth : Nat) (cs : List Char) :
    Splits cs (readCode depth cs).text (readCode depth cs).rest := (interpolation depth cs).2

theorem readTemplate_nil : readTemplate [] = ⟨[[]], [], []⟩ :=
  congrArg Subtype.val template.eq_1

theorem readTemplate_close (cs : List Char) :
    readTemplate ('\x60' :: cs) = ⟨[[]], ['\x60'], cs⟩ :=
  congrArg Subtype.val (template.eq_2 cs)

theorem readTemplate_escapeEnd : readTemplate ['\\'] = ⟨[['\\']], ['\\'], []⟩ :=
  congrArg Subtype.val template.eq_3

theorem readTemplate_escape (c : Char) (cs : List Char) :
    readTemplate ('\\' :: c :: cs) =
      ⟨pushChunk '\\' (pushChunk c (readTemplate cs).value), '\\' :: c :: (readTemplate cs).text,
        (readTemplate cs).rest⟩ := by
  rw [readTemplate, template]
  rfl

theorem readTemplate_open (cs : List Char) :
    readTemplate ('$' :: '{' :: cs) =
      ⟨[] :: (readTemplate (readCode 0 cs).rest).value,
        '$' :: '{' :: ((readCode 0 cs).text ++ (readTemplate (readCode 0 cs).rest).text),
        (readTemplate (readCode 0 cs).rest).rest⟩ := by
  rw [readTemplate, template]
  rfl

theorem readTemplate_other {c : Char} {cs : List Char} (hc : c ≠ '\x60') (hb : c ≠ '\\')
    (ho : ¬(c = '$' ∧ cs.head? = some '{')) :
    readTemplate (c :: cs) =
      ⟨pushChunk c (readTemplate cs).value, c :: (readTemplate cs).text,
        (readTemplate cs).rest⟩ := by
  rw [readTemplate, template]
  · rfl
  · exact hc
  · exact fun h _ => hb h
  · exact fun _ _ h _ => hb h
  · rintro ds rfl rfl
    exact ho ⟨rfl, rfl⟩

theorem readCode_nil (depth : Nat) : readCode depth [] = ⟨(), [], []⟩ :=
  congrArg Subtype.val (interpolation.eq_1 depth)

theorem readCode_end (cs : List Char) : readCode 0 ('}' :: cs) = ⟨(), ['}'], cs⟩ :=
  congrArg Subtype.val (interpolation.eq_3 cs)

theorem readCode_open (depth : Nat) (cs : List Char) :
    readCode depth ('{' :: cs) =
      ⟨(), '{' :: (readCode (depth + 1) cs).text, (readCode (depth + 1) cs).rest⟩ := by
  rw [readCode, interpolation]
  rfl

theorem readCode_close (depth : Nat) (cs : List Char) :
    readCode (depth + 1) ('}' :: cs) =
      ⟨(), '}' :: (readCode depth cs).text, (readCode depth cs).rest⟩ := by
  rw [readCode, interpolation]
  rfl

theorem readCode_lineComment (depth : Nat) (cs : List Char) :
    readCode depth ('/' :: '/' :: cs) =
      ⟨(), '/' :: '/' :: ((lineComment cs).text ++ (readCode depth (lineComment cs).rest).text),
        (readCode depth (lineComment cs).rest).rest⟩ := by
  rw [readCode, interpolation]
  rfl

theorem readCode_blockComment (depth : Nat) (cs : List Char) :
    readCode depth ('/' :: '*' :: cs) =
      ⟨(), '/' :: '*' :: ((blockComment cs).text ++ (readCode depth (blockComment cs).rest).text),
        (readCode depth (blockComment cs).rest).rest⟩ := by
  rw [readCode, interpolation]
  rfl

theorem readCode_template (depth : Nat) (cs : List Char) :
    readCode depth ('\x60' :: cs) =
      ⟨(), '\x60' :: ((readTemplate cs).text ++ (readCode depth (readTemplate cs).rest).text),
        (readCode depth (readTemplate cs).rest).rest⟩ := by
  rw [readCode, interpolation]
  rfl

theorem readCode_quoted (depth : Nat) {c : Char} (hc : c = '\'' ∨ c = '"') (cs : List Char) :
    readCode depth (c :: cs) =
      ⟨(), c :: ((quoted c cs).text ++ (readCode depth (quoted c cs).rest).text),
        (readCode depth (quoted c cs).rest).rest⟩ := by
  rcases hc with rfl | rfl
  all_goals
    rw [readCode, interpolation] <;> simp [readCode]

theorem readCode_other {depth : Nat} {c : Char} {cs : List Char} (ho : c ≠ '{') (hc : c ≠ '}')
    (hs : ¬(c = '/' ∧ (cs.head? = some '/' ∨ cs.head? = some '*'))) (ht : c ≠ '\x60')
    (hq : ¬(c = '\'' ∨ c = '"')) :
    readCode depth (c :: cs) = ⟨(), c :: (readCode depth cs).text, (readCode depth cs).rest⟩ := by
  rw [readCode, interpolation]
  · simp only [hq, if_false]
    rfl
  · exact ho
  · exact hc
  · rintro ds rfl rfl
    exact hs ⟨rfl, .inl rfl⟩
  · rintro ds rfl rfl
    exact hs ⟨rfl, .inr rfl⟩
  · exact ht

/-- Induction along the joint recursion of the two scanners. -/
theorem scan_induct {P : List Char → Prop} {Q : Nat → List Char → Prop}
    (nil : P []) (close : ∀ cs, P ('\x60' :: cs)) (escapeEnd : P ['\\'])
    (escape : ∀ c cs, P cs → P ('\\' :: c :: cs))
    (code : ∀ cs, Q 0 cs → P (readCode 0 cs).rest → P ('$' :: '{' :: cs))
    (other : ∀ c cs, c ≠ '\x60' → c ≠ '\\' → ¬(c = '$' ∧ cs.head? = some '{') → P cs → P (c :: cs))
    (codeNil : ∀ depth, Q depth []) (codeEnd : ∀ cs, Q 0 ('}' :: cs))
    (codeOpen : ∀ depth cs, Q (depth + 1) cs → Q depth ('{' :: cs))
    (codeClose : ∀ depth cs, Q depth cs → Q (depth + 1) ('}' :: cs))
    (codeLine : ∀ depth cs, Q depth (lineComment cs).rest → Q depth ('/' :: '/' :: cs))
    (codeBlock : ∀ depth cs, Q depth (blockComment cs).rest → Q depth ('/' :: '*' :: cs))
    (codeTemplate : ∀ depth cs, P cs → Q depth (readTemplate cs).rest → Q depth ('\x60' :: cs))
    (codeQuoted : ∀ depth c cs, c = '\'' ∨ c = '"' → Q depth (quoted c cs).rest →
      Q depth (c :: cs))
    (codeOther : ∀ depth c cs, c ≠ '{' → c ≠ '}' →
      ¬(c = '/' ∧ (cs.head? = some '/' ∨ cs.head? = some '*')) → c ≠ '\x60' →
      ¬(c = '\'' ∨ c = '"') → Q depth cs → Q depth (c :: cs)) :
    (∀ cs, P cs) ∧ ∀ depth cs, Q depth cs := by
  -- The recursion is on texts that are put together from what was read and what is left of them.
  apply template.mutual_induct P Q
  case case1 => exact nil
  case case2 => exact close
  case case3 => exact escapeEnd
  case case4 => exact fun c s _ ih => escape c _ ih
  case case5 =>
    intro inner s _ _ hinner _ ihcode ih
    have hread : readCode 0 (inner.text ++ inner.rest) = inner := congrArg Subtype.val hinner
    exact code _ ihcode (by rwa [hread])
  case case6 =>
    intro c hc s hend hescape hopen _ ih
    refine other c _ hc ?_ ?_ ih
    · rintro rfl
      cases hcs : s.text ++ s.rest with
      | nil => exact hend rfl hcs
      | cons d cs => exact hescape d cs rfl hcs
    · rintro ⟨rfl, hhead⟩
      obtain ⟨rest, hcs⟩ := List.head?_eq_some_iff.mp hhead
      exact hopen rest rfl hcs
  case case7 => exact codeNil
  case case8 => exact fun depth s _ ih => codeOpen depth _ ih
  case case9 => exact codeEnd
  case case10 => exact fun depth s _ ih => codeClose depth _ ih
  case case11 => exact fun depth cs _ _ _ _ _ ih => codeLine depth cs ih
  case case12 => exact fun depth cs _ _ _ _ _ ih => codeBlock depth cs ih
  case case13 =>
    intro depth inner s _ _ hinner _ ihinner ih
    have hread : readTemplate (inner.text ++ inner.rest) = inner := congrArg Subtype.val hinner
    exact codeTemplate depth _ ihinner (by rwa [hread])
  case case14 => exact fun depth c cs _ _ _ _ _ hq _ _ _ _ _ ih => codeQuoted depth c cs hq ih
  case case15 =>
    intro depth c ho hc ht hq s hl hb _ ih
    refine codeOther depth c _ ho hc ?_ ht hq ih
    rintro ⟨rfl, hhead | hhead⟩
    · obtain ⟨rest, hcs⟩ := List.head?_eq_some_iff.mp hhead
      exact hl rest rfl hcs
    · obtain ⟨rest, hcs⟩ := List.head?_eq_some_iff.mp hhead
      exact hb rest rfl hcs

theorem foldr_pushChunk (cs chunk : List Char) (chunks : List (List Char)) :
    cs.foldr pushChunk (chunk :: chunks) = (cs ++ chunk) :: chunks := by
  induction cs with
  | nil => rfl
  | cons c cs ih => rw [List.foldr_cons, ih, pushChunk, List.cons_append]

/-- A text starts as what was taken from it does, whatever follows. -/
theorem sameStart_taken {cs text rest : List Char} (hsplit : Splits cs text rest)
    (hne : text ≠ []) (ds : List Char) : SameStart cs (text ++ ds) := by
  cases text with
  | nil => exact absurd rfl hne
  | cons c text =>
      rw [← hsplit]
      exact .head c _ _

theorem text_readTemplate_ne_nil {cs : List Char} (h : (readTemplate cs).rest ≠ []) :
    (readTemplate cs).text ≠ [] := by
  rw [readTemplate] at h ⊢
  unfold template at h ⊢
  split at h <;> simp_all

theorem text_readCode_ne_nil {depth : Nat} {cs : List Char} (h : (readCode depth cs).rest ≠ []) :
    (readCode depth cs).text ≠ [] := by
  rw [readCode] at h ⊢
  unfold interpolation at h ⊢
  repeat' split at h
  all_goals simp_all

/-- The template is closed, so it is read again in front of any text. -/
def TemplateCloses (cs : List Char) : Prop :=
  (readTemplate cs).rest ≠ [] → ∀ ds : List Char,
    readTemplate ((readTemplate cs).text ++ ds) =
      ⟨(readTemplate cs).value, (readTemplate cs).text, ds⟩

/-- The code of the interpolation is closed, so it is read again in front of any text. -/
def CodeCloses (depth : Nat) (cs : List Char) : Prop :=
  (readCode depth cs).rest ≠ [] → ∀ ds : List Char,
    readCode depth ((readCode depth cs).text ++ ds) = ⟨(), (readCode depth cs).text, ds⟩

theorem closes :
    (∀ cs, TemplateCloses cs) ∧ ∀ depth cs, CodeCloses depth cs := by
  apply scan_induct
  case nil =>
    intro h
    rw [readTemplate_nil] at h
    exact absurd rfl h
  case close =>
    intro cs h ds
    rw [readTemplate_close]
    exact readTemplate_close ds
  case escapeEnd =>
    intro h
    rw [readTemplate_escapeEnd] at h
    exact absurd rfl h
  case escape =>
    intro c cs ih h ds
    rw [readTemplate_escape] at h ⊢
    simp only [List.cons_append, readTemplate_escape, ih h]
  case code =>
    intro cs ihcode ih h ds
    rw [readTemplate_open] at h ⊢
    have hcode : (readCode 0 cs).rest ≠ [] := by
      intro hnil
      rw [hnil, readTemplate_nil] at h
      exact h rfl
    simp only [List.cons_append, List.append_assoc, readTemplate_open, ihcode hcode, ih h]
  case other =>
    intro c cs hc hb ho ih h ds
    rw [readTemplate_other hc hb ho] at h ⊢
    have hstart := sameStart_taken (readTemplate_splits cs) (text_readTemplate_ne_nil h) ds
    have ho' : ¬(c = '$' ∧ ((readTemplate cs).text ++ ds).head? = some '{') := by
      rwa [hstart.head?_iff (by decide)]
    simp only [List.cons_append, readTemplate_other hc hb ho', ih h]
  case codeNil =>
    intro depth h
    rw [readCode_nil] at h
    exact absurd rfl h
  case codeEnd =>
    intro cs h ds
    rw [readCode_end]
    exact readCode_end ds
  case codeOpen =>
    intro depth cs ih h ds
    rw [readCode_open] at h ⊢
    simp only [List.cons_append, readCode_open, ih h]
  case codeClose =>
    intro depth cs ih h ds
    rw [readCode_close] at h ⊢
    simp only [List.cons_append, readCode_close, ih h]
  case codeLine =>
    intro depth cs ih h ds
    rw [readCode_lineComment] at h ⊢
    have hfirst := lineComment_append (sameStart_taken
      (readCode_splits depth (lineComment cs).rest) (text_readCode_ne_nil h) ds)
    simp only [List.cons_append, List.append_assoc, readCode_lineComment, hfirst, ih h]
  case codeBlock =>
    intro depth cs ih h ds
    rw [readCode_blockComment] at h ⊢
    have hfirst := blockComment_append (sameStart_taken
      (readCode_splits depth (blockComment cs).rest) (text_readCode_ne_nil h) ds)
    simp only [List.cons_append, List.append_assoc, readCode_blockComment, hfirst, ih h]
  case codeTemplate =>
    intro depth cs ihinner ih h ds
    rw [readCode_template] at h ⊢
    have hinner : (readTemplate cs).rest ≠ [] := by
      intro hnil
      rw [hnil, readCode_nil] at h
      exact h rfl
    simp only [List.cons_append, List.append_assoc, readCode_template, ihinner hinner, ih h]
  case codeQuoted =>
    intro depth c cs hq ih h ds
    rw [readCode_quoted depth hq] at h ⊢
    have hfirst := quoted_append (sameStart_taken
      (readCode_splits depth (quoted c cs).rest) (text_readCode_ne_nil h) ds)
    simp only [List.cons_append, List.append_assoc, readCode_quoted depth hq, hfirst, ih h]
  case codeOther =>
    intro depth c cs ho hc hs ht hq ih h ds
    rw [readCode_other ho hc hs ht hq] at h ⊢
    have hstart := sameStart_taken (readCode_splits depth cs) (text_readCode_ne_nil h) ds
    have hs' : ¬(c = '/' ∧ (((readCode depth cs).text ++ ds).head? = some '/' ∨
        ((readCode depth cs).text ++ ds).head? = some '*')) := by
      rwa [hstart.head?_iff (by decide), hstart.head?_iff (by decide)]
    simp only [List.cons_append, readCode_other ho hc hs' ht hq, ih h]

theorem readTemplate_closed {cs : List Char} (h : (readTemplate cs).rest ≠ []) (ds : List Char) :
    readTemplate ((readTemplate cs).text ++ ds) =
      ⟨(readTemplate cs).value, (readTemplate cs).text, ds⟩ :=
  closes.1 cs h ds

theorem readTemplate_append {cs ds : List Char} (h : SameStart (readTemplate cs).rest ds) :
    readTemplate ((readTemplate cs).text ++ ds) =
      ⟨(readTemplate cs).value, (readTemplate cs).text, ds⟩ := by
  by_cases hrest : (readTemplate cs).rest = []
  · rw [hrest] at h
    have hsplit := readTemplate_splits cs
    rw [Splits, hrest] at hsplit
    rw [h.eq_nil, hsplit, ← hrest]
  · exact readTemplate_closed hrest ds

theorem isNumberChar_of_isQuote (c : Char) (h : isQuote c = true) : isNumberChar c = false := by
  simp only [isQuote, Bool.or_eq_true, beq_iff_eq] at h
  rcases h with (rfl | rfl) | rfl <;> rfl

theorem isNameChar_of_isQuote (c : Char) (h : isQuote c = true) : isNameChar c = false := by
  simp only [isQuote, Bool.or_eq_true, beq_iff_eq] at h
  rcases h with (rfl | rfl) | rfl <;> rfl

/-- A lexeme is read again in front of any text that starts as the one behind it did. -/
theorem Reads.append {prior prior' : Option TokenKind}
    (hprior : TokenKind.opensRegex prior' = TokenKind.opensRegex prior) {c : Char}
    {cs ds : List Char} {s : Scan (Option TokenKind)} (h : Reads prior c cs s)
    (hstart : SameStart s.rest ds) :
    ∃ taken, s.text = c :: taken ∧ Reads prior' c (taken ++ ds) ⟨s.value, s.text, ds⟩ := by
  suffices hagain : ∃ taken, s.text = c :: taken ∧
      Reads prior c (taken ++ ds) ⟨s.value, s.text, ds⟩ by
    obtain ⟨taken, htext, hread⟩ := hagain
    have hopens := hread.opensRegex
    rw [← hprior] at hopens
    exact ⟨taken, htext, hread.of_prior hopens.1 hopens.2⟩
  cases h with
  | space hc => exact ⟨[], rfl, .space hc ds⟩
  | @line text rest htext hrest =>
      refine ⟨'/' :: text, rfl, .line htext (hstart.forall_head? ?_ hrest)⟩
      rintro c d hc - rfl
      cases hc
  | @block cs text rest h =>
      have hrest : SameStart (blockComment cs).rest ds := by rwa [h]
      have hagain := blockComment_append hrest
      rw [h] at hagain
      exact ⟨'*' :: text, rfl, .block hagain⟩
  | @regex cs text rest hcs hopens h =>
      have hrest : SameStart (Lexer.regex false cs).rest ds := by rwa [h]
      have hagain := regex_append hrest
      have hsplit := regex_splits false cs
      rw [h] at hagain hsplit
      exact ⟨text, rfl, .regex (hcs.imp (mt (head?_append hsplit hstart rfl).mp)
        (mt (head?_append hsplit hstart rfl).mp)) hopens hagain⟩
  | slash hrest hopens =>
      exact ⟨[], rfl, .slash (hrest.imp (mt (hstart.head?_iff rfl).mp)
        (mt (hstart.head?_iff rfl).mp)) hopens⟩
  | @quoted c cs value text rest hc h =>
      have hrest : SameStart (Lexer.quoted c cs).rest ds := by rwa [h]
      have hagain := quoted_append hrest
      rw [h] at hagain
      exact ⟨text, rfl, .quoted hc hagain⟩
  | @template cs text rest chunks h =>
      have hrest : SameStart (readTemplate cs).rest ds := by rwa [h]
      have hagain := readTemplate_append hrest
      rw [h] at hagain
      exact ⟨text, rfl, .template hagain⟩
  | @number c run rest hc hrun hrest =>
      exact ⟨run, rfl, .number hc hrun
        (hstart.forall_head? (fun _ hd _ => isNumberChar_of_isQuote _ hd) hrest)⟩
  | @name c run rest hdigit hname hrest =>
      exact ⟨run, rfl, .name hdigit hname
        (hstart.forall_head? (fun _ hd _ => isNameChar_of_isQuote _ hd) hrest)⟩
  | sign hc => exact ⟨[], rfl, .sign hc ds⟩

/-- In a string between such quotes the character means itself. -/
def isUnescaped (quote c : Char) : Bool := c != quote && c != '\n' && c != '\\'

theorem quoted_unescaped {quote : Char} {value : List Char}
    (h : value.all (isUnescaped quote) = true) (cs : List Char) :
    quoted quote (value ++ quote :: cs) = ⟨value, value ++ [quote], cs⟩ := by
  induction value with
  | nil => exact quoted_close quote cs
  | cons c value ih =>
      obtain ⟨hc, hvalue⟩ := Bool.and_eq_true_iff.mp h
      simp only [isUnescaped, Bool.and_eq_true, bne_iff_ne] at hc
      obtain ⟨⟨hq, hn⟩, hb⟩ := hc
      rw [List.cons_append, quoted_other hq hn hb, ih hvalue, List.cons_append]

theorem next_unescaped (prior : Option TokenKind) {quote : Char} {value : List Char}
    (hquote : quote = '\'' ∨ quote = '"') (h : value.all (isUnescaped quote) = true)
    (cs : List Char) :
    next prior quote (value ++ quote :: cs) =
      ⟨some (.str (String.ofList value)), quote :: (value ++ [quote]), cs⟩ :=
  (Reads.quoted hquote (quoted_unescaped h cs)).next_eq

/-- A text that a string in single quotes holds as it is. -/
def isPlain (c : Char) : Bool := c != '\'' && c != '\n' && c != '\\'

theorem next_plain (prior : Option TokenKind) {value : List Char} (h : value.all isPlain = true)
    (cs : List Char) :
    next prior '\'' (value ++ '\'' :: cs) =
      ⟨some (.str (String.ofList value)), '\'' :: (value ++ ['\'']), cs⟩ :=
  next_unescaped prior (.inl rfl) h cs

end Lexer

open Lexer

def TokenKind.IsLiteral (kind : TokenKind) : Prop :=
  (∃ value, kind = .str value) ∨ ∃ chunks, kind = .template chunks

/-- A lexeme that stays, or a literal that gives way to a plain string. -/
inductive Respelled : Lexeme → Lexeme → Prop
  | same (l : Lexeme) : Respelled l l
  | plain {l : Lexeme} {k : TokenKind} {value : String} (hkind : l.kind = some k)
      (hk : k.IsLiteral)
      (htext : ∃ c cs, l.text = c :: cs ∧ isQuote c = true)
      (hvalue : value.toList.all isPlain = true) :
      Respelled l ⟨some (.str value), '\'' :: (value.toList ++ ['\''])⟩

theorem text_ne_nil_of_mem_lexemes {prior : Option TokenKind} {cs : List Char} {l : Lexeme}
    (h : l ∈ lexemes prior cs) : l.text ≠ [] := by
  obtain ⟨_, c, _, _, hread, rfl⟩ := exists_reads_of_mem_lexemes h
  obtain ⟨taken, htext⟩ := hread.exists_text
  exact htext ▸ List.cons_ne_nil c taken

theorem sameStart_flatMap {ls ls' : List Lexeme} (h : List.Forall₂ Respelled ls ls')
    (htext : ∀ l ∈ ls, l.text ≠ []) :
    SameStart (ls.flatMap Lexeme.text) (ls'.flatMap Lexeme.text) := by
  cases h with
  | nil => exact .nil
  | @cons l l' ls ls' hl hls =>
      rw [List.flatMap_cons, List.flatMap_cons]
      cases hl with
      | same =>
          cases ht : l.text with
          | nil => exact absurd ht (htext l List.mem_cons_self)
          | cons c cs => exact .head c _ _
      | plain _ _ htext' _ =>
          obtain ⟨c, cs, ht, hc⟩ := htext'
          rw [ht]
          exact .quote hc rfl _ _

/-- Texts with respelled literals have respelled lexemes. -/
theorem lexemes_respelled {prior prior' : Option TokenKind}
    (hprior : TokenKind.opensRegex prior' = TokenKind.opensRegex prior) {cs : List Char}
    {ls : List Lexeme} (h : List.Forall₂ Respelled (lexemes prior cs) ls) :
    lexemes prior' (ls.flatMap Lexeme.text) = ls := by
  fun_induction lexemes prior cs generalizing prior' ls with
  | case1 =>
      cases h
      rw [List.flatMap_nil, lexemes]
  | case2 prior c cs hle ih =>
      cases h with
      | @cons _ l _ ls hl hls =>
          have hstart := sameStart_flatMap hls fun l hl => text_ne_nil_of_mem_lexemes hl
          rw [flatMap_text_lexemes] at hstart
          rw [List.flatMap_cons]
          cases hl with
          | same =>
              obtain ⟨taken, htext, hread⟩ := (reads_next prior c cs).append hprior hstart
              rw [htext] at hread
              have hnext := hread.next_eq
              have hrest : TokenKind.opensRegex ((next prior c cs).value.or prior') =
                  TokenKind.opensRegex ((next prior c cs).value.or prior) := by
                cases (next prior c cs).value with
                | none => exact hprior
                | some kind => rfl
              rw [htext, List.cons_append, lexemes]
              simp only [hnext, ih hrest hls]
          | @plain k value hkind hk htext hvalue =>
              have hrest : TokenKind.opensRegex ((some (.str value)).or prior') =
                  TokenKind.opensRegex ((next prior c cs).value.or prior) := by
                simp only at hkind
                rw [hkind]
                rcases hk with ⟨v, rfl⟩ | ⟨chunks, rfl⟩ <;> rfl
              have hnext := next_plain prior' hvalue (ls.flatMap Lexeme.text)
              rw [String.ofList_toList] at hnext
              rw [List.cons_append, List.append_assoc, List.singleton_append, lexemes]
              simp only [hnext, ih hrest hls]

end StyleBundler.Script
