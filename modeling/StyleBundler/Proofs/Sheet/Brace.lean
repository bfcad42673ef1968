import StyleBundler.Sheet.Brace

/-!
How a text that is read to its end carries over to the text behind it. A scanner state
composes (`readBraces_append`), and from it follow the three cuts that a stylesheet is
made of: a comment, a string and a block that close inside a text are cut off in the
same place whatever stands behind that text.
-/

namespace StyleBundler.Sheet

theorem readBraces_append (mode : Mode) (depth : Nat) (a b : List Char) :
    readBraces mode depth (a ++ b) =
      (readBraces mode depth a).bind fun s => readBraces s.1 s.2 b := by
  induction a generalizing mode depth with
  | nil => rfl
  | cons c a ih =>
      simp only [List.cons_append, readBraces]
      split
      · cases depth with
        | zero => rfl
        | succ depth => exact ih .plain depth
      · exact ih _ _

/-- What a text reads to its end stands in the block, and the block goes on behind it. -/
theorem splitBlock_append {mode mode' : Mode} {depth depth' : Nat} {a : List Char}
    (h : readBraces mode depth a = some (mode', depth')) (b : List Char) :
    splitBlock mode depth (a ++ b) =
      (a ++ (splitBlock mode' depth' b).1, (splitBlock mode' depth' b).2) := by
  induction a generalizing mode depth with
  | nil =>
      simp only [readBraces, Option.some.injEq, Prod.mk.injEq] at h
      obtain ⟨rfl, rfl⟩ := h
      rfl
  | cons c a ih =>
      simp only [List.cons_append, readBraces, splitBlock] at h ⊢
      split at h
      · next hc =>
          simp only [hc, if_true]
          cases depth with
          | zero => cases h
          | succ depth => simp only [ih h]
      · next hc =>
          simp only [hc, ih h]
          rfl

/-- A block that closes in a text is the same whatever stands behind that text. -/
theorem splitBlock_append_of_none {mode : Mode} {depth : Nat} {a : List Char}
    (h : readBraces mode depth a = none) (b : List Char) :
    splitBlock mode depth (a ++ b) =
      ((splitBlock mode depth a).1, (splitBlock mode depth a).2 ++ b) := by
  induction a generalizing mode depth with
  | nil => cases h
  | cons c a ih =>
      simp only [List.cons_append, readBraces, splitBlock] at h ⊢
      split at h
      · next hc =>
          simp only [hc, if_true]
          cases depth with
          | zero => rfl
          | succ depth => simp only [ih h]
      · next hc => simp only [hc, ih h, Bool.false_eq_true, if_false]

/-- A block that closes is read to its end outside of strings and comments. -/
theorem exists_readBraces_block {mode : Mode} {depth : Nat} {cs : List Char}
    (h : readBraces mode depth cs = none) :
    ∃ mode' : Mode, mode'.isCode = true ∧
      readBraces mode depth (splitBlock mode depth cs).1 = some (mode', 0) := by
  induction cs generalizing mode depth with
  | nil => cases h
  | cons c cs ih =>
      simp only [readBraces, splitBlock] at h ⊢
      split at h
      · next hc =>
          simp only [hc, if_true]
          cases depth with
          | zero => exact ⟨mode, (Bool.and_eq_true_iff.mp hc).1, rfl⟩
          | succ depth =>
              obtain ⟨mode', hm, hread⟩ := ih h
              exact ⟨mode', hm, by simpa only [readBraces, hc, if_true] using hread⟩
      · next hc =>
          obtain ⟨mode', hm, hread⟩ := ih h
          refine ⟨mode', hm, ?_⟩
          simpa only [readBraces, hc, Bool.false_eq_true, if_false] using hread

/-- Blocks that are open around a text stay open behind it. -/
theorem readBraces_add {mode mode' : Mode} {depth depth' : Nat} {cs : List Char}
    (h : readBraces mode depth cs = some (mode', depth')) (outer : Nat) :
    readBraces mode (depth + outer) cs = some (mode', depth' + outer) := by
  induction cs generalizing mode depth with
  | nil =>
      simp only [readBraces, Option.some.injEq, Prod.mk.injEq] at h ⊢
      exact ⟨h.1, by rw [h.2]⟩
  | cons c cs ih =>
      simp only [readBraces] at h ⊢
      split at h
      · next hc =>
          simp only [hc, if_true]
          cases depth with
          | zero => cases h
          | succ depth =>
              rw [Nat.succ_add]
              exact ih h
      · next hc =>
          rw [if_neg hc]
          have hopen := ih h
          split at hopen
          · next ho => rwa [if_pos ho, Nat.add_right_comm]
          · next ho => rwa [if_neg ho]

/-- Only the two signs of a string quote one. -/
def Mode.IsQuoting : Mode → Prop
  | quoted q | escaped q => q = '"' ∨ q = '\''
  | _ => True

theorem Mode.isQuoting_next {mode : Mode} (h : mode.IsQuoting) (c : Char) :
    (mode.next c).IsQuoting := by
  have hcode : (Mode.ofCode c).IsQuoting := by
    simp only [Mode.ofCode]
    split
    · trivial
    · split
      · next hc => exact hc
      · trivial
  cases mode with
  | plain => exact hcode
  | slash =>
      simp only [Mode.next]
      split
      · trivial
      · exact hcode
  | quoted q =>
      simp only [Mode.next]
      split
      · exact h
      · split
        · trivial
        · exact h
  | escaped q => exact h
  | comment | star =>
      simp only [Mode.next]
      repeat' split
      all_goals trivial

theorem isQuoting_of_readBraces {mode mode' : Mode} {depth depth' : Nat} {cs : List Char}
    (h : readBraces mode depth cs = some (mode', depth')) (hmode : mode.IsQuoting) :
    mode'.IsQuoting := by
  induction cs generalizing mode depth with
  | nil =>
      simp only [readBraces, Option.some.injEq, Prod.mk.injEq] at h
      exact h.1 ▸ hmode
  | cons c cs ih =>
      simp only [readBraces] at h
      split at h
      · cases depth with
        | zero => cases h
        | succ depth => exact ih h trivial
      · exact ih h (Mode.isQuoting_next hmode c)

theorem selfContained_iff {css : List Char} :
    SelfContained css ↔
      ∃ mode : Mode, mode.isCode = true ∧ readBraces .plain 0 css = some (mode, 0) := by
  constructor
  · rintro (h | h)
    · exact ⟨.plain, rfl, h⟩
    · exact ⟨.slash, rfl, h⟩
  · rintro ⟨mode, hm, h⟩
    cases mode with
    | plain => exact .inl h
    | slash => exact .inr h
    | quoted _ | escaped _ | comment | star => cases hm

/-- A self-contained text is the whole of the block around it. -/
theorem splitBlock_selfContained {css : List Char} (h : SelfContained css) (rest : List Char) :
    splitBlock .plain 0 (css ++ '}' :: rest) = (css, rest) := by
  rcases h with h | h
  all_goals
    rw [splitBlock_append h]
    simp [splitBlock, Mode.isCode]

/-- A text that closes one block more than it opens splits at that block's brace. -/
theorem exists_block {mode mode' : Mode} {depth : Nat} {cs : List Char}
    (h : readBraces mode (depth + 1) cs = some (mode', 0)) :
    ∃ body tail, cs = body ++ '}' :: tail ∧
      (∃ last : Mode, last.isCode = true ∧ readBraces mode depth body = some (last, 0)) ∧
      readBraces .plain 0 tail = some (mode', 0) := by
  induction cs generalizing mode depth with
  | nil => simp [readBraces] at h
  | cons c cs ih =>
      simp only [readBraces] at h
      split at h
      · next hc =>
          obtain ⟨hcode, hclose⟩ := Bool.and_eq_true_iff.mp hc
          cases depth with
          | zero =>
              obtain rfl := eq_of_beq hclose
              exact ⟨[], cs, rfl, ⟨mode, hcode, rfl⟩, h⟩
          | succ depth =>
              obtain ⟨body, tail, rfl, ⟨last, hlast, hbody⟩, htail⟩ := ih h
              refine ⟨c :: body, tail, rfl, ⟨last, hlast, ?_⟩, htail⟩
              simpa only [readBraces, hc, if_true] using hbody
      · next hc =>
          have hopen : (if (mode.isCode && c == '{') = true then depth + 1 + 1 else depth + 1) =
              (if (mode.isCode && c == '{') = true then depth + 1 else depth) + 1 := by
            split <;> rfl
          rw [hopen] at h
          obtain ⟨body, tail, rfl, ⟨last, hlast, hbody⟩, htail⟩ := ih h
          refine ⟨c :: body, tail, rfl, ⟨last, hlast, ?_⟩, htail⟩
          simpa only [readBraces, hc, Bool.false_eq_true, if_false] using hbody

/-- From a string or a comment back to code there is something to read. -/
theorem ne_nil_of_readBraces {mode mode' : Mode} {depth depth' : Nat} {cs : List Char}
    (h : readBraces mode depth cs = some (mode', depth')) (hmode : mode.isCode = false)
    (hm : mode'.isCode = true) : cs ≠ [] := by
  rintro rfl
  simp only [readBraces, Option.some.injEq, Prod.mk.injEq] at h
  rw [← h.1, hmode] at hm
  cases hm

/-- Behind a star that no slash follows, a comment reads on as before. -/
theorem readBraces_star {depth : Nat} {c : Char} (hc : c ≠ '/') (cs : List Char) :
    readBraces .star depth (c :: cs) = readBraces .comment depth (c :: cs) := by
  by_cases hs : c = '*' <;> simp [readBraces, Mode.isCode, Mode.next, hc, hs]

/-- Behind a slash that no star follows, the text reads on as before. -/
theorem readBraces_slash {depth : Nat} {c : Char} (hc : c ≠ '*') (cs : List Char) :
    readBraces .slash depth (c :: cs) = readBraces .plain depth (c :: cs) := by
  simp [readBraces, Mode.isCode, Mode.next, hc]

/-- A text that ends outside of the comment it starts in closes that comment. -/
theorem exists_afterComment {mode : Mode} {depth depth' : Nat} {cs : List Char}
    (h : readBraces .comment depth cs = some (mode, depth')) (hm : mode.isCode = true) :
    ∃ tail, readBraces .plain depth tail = some (mode, depth') ∧ tail.length < cs.length ∧
      ∀ b, afterComment (cs ++ b) = tail ++ b := by
  induction cs with
  | nil => exact absurd rfl (ne_nil_of_readBraces h rfl hm)
  | cons c cs ih =>
      by_cases hc : c = '*'
      · subst hc
        have h : readBraces .star depth cs = some (mode, depth') := h
        cases cs with
        | nil => exact absurd rfl (ne_nil_of_readBraces h rfl hm)
        | cons d cs =>
            by_cases hd : d = '/'
            · subst hd
              exact ⟨cs, h, by simp only [List.length_cons]; omega, fun b => by simp [afterComment]⟩
            · rw [readBraces_star hd] at h
              obtain ⟨tail, htail, hlen, hafter⟩ := ih h
              refine ⟨tail, htail, Nat.lt_succ_of_lt hlen, fun b => ?_⟩
              rw [← hafter b]
              simp [afterComment, hd]
      · have hnext : Mode.next .comment c = .comment := by simp [Mode.next, hc]
        simp only [readBraces, Mode.isCode, Bool.false_and, Bool.false_eq_true, if_false,
          hnext] at h
        obtain ⟨tail, htail, hlen, hafter⟩ := ih h
        refine ⟨tail, htail, Nat.lt_succ_of_lt hlen, fun b => ?_⟩
        rw [← hafter b]
        simp [afterComment, hc]

/-- A string behind its opening quote, up to the quote that closes it. -/
structure ClosesString (quote : Char) (text : List Char) : Prop where
  split : ∀ rest, splitString quote (text ++ rest) = (text, rest)
  read : ∀ depth, readBraces (.quoted quote) depth text = some (.plain, depth)
  last : text.getLast? = some quote

theorem closesString_quote {quote : Char} (hq : quote ≠ '\\') : ClosesString quote [quote] where
  split rest := by simp [splitString, hq]
  read depth := by simp [readBraces, Mode.isCode, Mode.next, hq]
  last := rfl

theorem ClosesString.escape {quote : Char} {text : List Char} (h : ClosesString quote text)
    (c : Char) : ClosesString quote ('\\' :: c :: text) where
  split rest := by simp [splitString, h.split]
  read depth := by simpa [readBraces, Mode.isCode, Mode.next] using h.read depth
  last := by simp [List.getLast?_cons, h.last]

theorem ClosesString.cons {quote : Char} {text : List Char} (h : ClosesString quote text)
    {c : Char} (hc : c ≠ '\\') (hquote : c ≠ quote) : ClosesString quote (c :: text) where
  split rest := by simp [splitString, hc, hquote, h.split]
  read depth := by simpa [readBraces, Mode.isCode, Mode.next, hc, hquote] using h.read depth
  last := by simp [List.getLast?_cons, h.last]

/-- A text that ends outside of the string it starts in closes that string. -/
theorem exists_closesString {mode : Mode} {depth depth' : Nat} {quote : Char}
    (hq : quote ≠ '\\') {cs : List Char}
    (h : readBraces (.quoted quote) depth cs = some (mode, depth')) (hm : mode.isCode = true) :
    ∃ text tail, cs = text ++ tail ∧ ClosesString quote text ∧
      readBraces .plain depth tail = some (mode, depth') := by
  fun_induction splitString quote cs with
  | case1 => exact absurd rfl (ne_nil_of_readBraces h rfl hm)
  | case2 c cs text rest _ ih =>
      have h : readBraces (.quoted quote) depth cs = some (mode, depth') := by
        simpa [readBraces, Mode.isCode, Mode.next] using h
      obtain ⟨body, tail, rfl, hbody, htail⟩ := ih h
      exact ⟨'\\' :: c :: body, tail, rfl, hbody.escape c, htail⟩
  | case3 cs _ =>
      have h : readBraces .plain depth cs = some (mode, depth') := by
        simpa [readBraces, Mode.isCode, Mode.next, hq] using h
      exact ⟨[quote], cs, rfl, closesString_quote hq, h⟩
  | case4 c cs hesc hcq _ _ _ ih =>
      have hc : c ≠ '\\' := by
        rintro rfl
        have h : readBraces (.escaped quote) depth cs = some (mode, depth') := by
          simpa [readBraces, Mode.isCode, Mode.next] using h
        cases cs with
        | nil => exact ne_nil_of_readBraces h rfl hm rfl
        | cons d cs => exact hesc d cs rfl rfl
      have h : readBraces (.quoted quote) depth cs = some (mode, depth') := by
        simpa [readBraces, Mode.isCode, Mode.next, hc, hcq] using h
      obtain ⟨body, tail, rfl, hbody, htail⟩ := ih h
      exact ⟨c :: body, tail, rfl, hbody.cons hc hcq, htail⟩

end StyleBundler.Sheet
