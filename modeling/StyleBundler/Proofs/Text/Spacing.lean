import StyleBundler.Text.Blank
import StyleBundler.Text.Word

/-!
Texts that differ in how wide their white space is. `squeeze` makes one space of each run of blanks;
what passes over blanks, or over none of them, commutes with it.
-/

namespace StyleBundler.Text

/-- The text with each run of blanks as one space. -/
def squeeze : List Char → List Char
  | [] => []
  | c :: cs =>
      if isBlank c then if cs.head?.any isBlank then squeeze cs else ' ' :: squeeze cs
      else c :: squeeze cs

theorem squeeze_cons {c : Char} (h : isBlank c = false) (cs : List Char) :
    squeeze (c :: cs) = c :: squeeze cs := by
  rw [squeeze, h]
  rfl

/-- A blank in front of a text gives a space, if there is none yet. -/
theorem squeeze_cons_blank {c : Char} (h : isBlank c = true) (cs : List Char) :
    squeeze (c :: cs) = if cs.head?.any isBlank then squeeze cs else ' ' :: squeeze cs := by
  rw [squeeze, if_pos h]

theorem head?_squeeze (cs : List Char) :
    (squeeze cs).head? = cs.head?.map fun c => if isBlank c then ' ' else c := by
  induction cs with
  | nil => rfl
  | cons c cs ih =>
      cases hc : isBlank c with
      | false => rw [squeeze_cons hc, List.head?_cons, List.head?_cons, Option.map_some, hc]; rfl
      | true =>
          rw [squeeze_cons_blank hc, List.head?_cons, Option.map_some, hc]
          cases cs with
          | nil => rfl
          | cons d cs =>
              rw [List.head?_cons, Option.any_some]
              split
              · next hd =>
                  rw [ih, List.head?_cons, Option.map_some, hd]
                  rfl
              · rfl

/-- A text that starts with a blank starts with a space then. -/
theorem exists_squeeze_cons_blank {c : Char} (h : isBlank c = true) (cs : List Char) :
    ∃ rest, squeeze (c :: cs) = ' ' :: rest := by
  rw [← List.head?_eq_some_iff, head?_squeeze, List.head?_cons, Option.map_some, if_pos h]

theorem squeeze_eq_nil {cs : List Char} : squeeze cs = [] ↔ cs = [] := by
  rw [← List.head?_eq_none_iff, head?_squeeze, Option.map_eq_none_iff, List.head?_eq_none_iff]

theorem squeeze_eq_self {cs : List Char} (h : ∀ c ∈ cs, isBlank c = false) : squeeze cs = cs := by
  induction cs with
  | nil => rfl
  | cons c cs ih =>
      rw [squeeze_cons (h c List.mem_cons_self), ih fun d hd => h d (List.mem_cons_of_mem c hd)]

/-- Only blanks make a space. -/
theorem not_isBlank_of_squeeze {cs : List Char} (h : ∀ c ∈ squeeze cs, isBlank c = false) :
    ∀ c ∈ cs, isBlank c = false := by
  induction cs with
  | nil => nofun
  | cons c cs ih =>
      cases hc : isBlank c with
      | false =>
          rw [squeeze_cons hc] at h
          exact List.forall_mem_cons.mpr ⟨hc, ih fun d hd => h d (List.mem_cons_of_mem c hd)⟩
      | true =>
          obtain ⟨rest, hrest⟩ := exists_squeeze_cons_blank hc cs
          exact absurd (h ' ' (by rw [hrest]; exact List.mem_cons_self)) (by decide)

section While

variable {p : Char → Bool} (hp : ∀ c, isBlank c = true → p c = p ' ')

include hp

theorem dropWhile_squeeze (cs : List Char) :
    (squeeze cs).dropWhile p = squeeze (cs.dropWhile p) := by
  induction cs with
  | nil => rfl
  | cons c cs ih =>
      cases hc : isBlank c with
      | false =>
          rw [squeeze_cons hc, List.dropWhile_cons, List.dropWhile_cons, ih]
          split
          · rfl
          · exact (squeeze_cons hc cs).symm
      | true =>
          rw [List.dropWhile_cons, hp c hc]
          cases hspace : p ' ' with
          | true =>
              rw [if_pos rfl, squeeze_cons_blank hc, ← ih]
              split
              · rfl
              · exact List.dropWhile_cons_of_pos hspace
          | false =>
              obtain ⟨rest, hrest⟩ := exists_squeeze_cons_blank hc cs
              rw [hrest]
              simp [hspace, hrest]

theorem takeWhile_squeeze (cs : List Char) :
    (squeeze cs).takeWhile p = squeeze (cs.takeWhile p) := by
  induction cs with
  | nil => rfl
  | cons c cs ih =>
      cases hc : isBlank c with
      | false =>
          rw [squeeze_cons hc, List.takeWhile_cons, List.takeWhile_cons, ih]
          split
          · exact (squeeze_cons hc _).symm
          · rfl
      | true =>
          rw [List.takeWhile_cons, hp c hc]
          cases hspace : p ' ' with
          | true =>
              have hhead : (cs.takeWhile p).head?.any isBlank = cs.head?.any isBlank := by
                cases cs with
                | nil => rfl
                | cons d ds =>
                    cases hd : isBlank d with
                    | true => simp [hp d hd, hspace, hd]
                    | false => cases hpd : p d <;> simp [hpd, hd]
              rw [if_pos rfl, squeeze_cons_blank hc, squeeze_cons_blank hc, hhead, ← ih]
              split
              · rfl
              · exact List.takeWhile_cons_of_pos hspace
          | false =>
              obtain ⟨rest, hrest⟩ := exists_squeeze_cons_blank hc cs
              rw [hrest]
              simp [hspace, squeeze]

end While

theorem skipBlanks?_squeeze (cs : List Char) :
    skipBlanks? (squeeze cs) = (skipBlanks? cs).map squeeze := by
  have hdrop := dropWhile_squeeze (p := isBlank) (fun c hc => hc) cs
  cases cs with
  | nil => rfl
  | cons c cs =>
      cases hc : isBlank c with
      | false => simp [squeeze_cons hc, skipBlanks?, hc]
      | true =>
          obtain ⟨rest, hrest⟩ := exists_squeeze_cons_blank hc cs
          rw [hrest] at hdrop ⊢
          rw [skipBlanks?, skipBlanks?, hdrop, if_pos hc]
          rfl

theorem after?_squeeze {start : List Char} (hstart : start.all (!isBlank ·) = true)
    (cs : List Char) : after? start (squeeze cs) = (after? start cs).map squeeze := by
  induction start generalizing cs with
  | nil => rfl
  | cons p ps ih =>
      rw [List.all_cons, Bool.and_eq_true, Bool.not_eq_true'] at hstart
      obtain ⟨hp, hps⟩ := hstart
      cases cs with
      | nil => rfl
      | cons c cs =>
          cases hc : isBlank c with
          | false =>
              rw [squeeze_cons hc, after?, after?, ih hps]
              split <;> rfl
          | true =>
              obtain ⟨rest, hrest⟩ := exists_squeeze_cons_blank hc cs
              have hne : p ≠ c := fun h => by rw [h, hc] at hp; cases hp
              have hne' : p ≠ ' ' := fun h => by rw [h] at hp; exact absurd hp (by decide)
              rw [hrest, after?, after?, if_neg hne, if_neg hne']
              rfl

/-- No blank is a word character. -/
theorem isWord_of_isBlank {c : Char} (h : isBlank c = true) : isWord c = false := by
  have hcodes : ∀ n ∈ [0x85, 0xA0, 0x1680, 0x2028, 0x2029, 0x202F, 0x205F, 0x3000] ++
      List.range' 0x09 5 ++ [0x20] ++ List.range' 0x2000 11, isWord (Char.ofNat n) = false := by
    decide +kernel
  rw [← Char.ofNat_toNat c]
  refine hcodes _ ?_
  simp only [List.mem_append, List.mem_range'_1, List.mem_cons, List.not_mem_nil, or_false]
  simp only [isBlank, Bool.or_eq_true, Bool.and_eq_true, decide_eq_true_eq, beq_iff_eq,
    Char.le_def, UInt32.le_iff_toNat_le, Char.ext_iff, ← UInt32.toNat_inj, Char.reduceVal,
    UInt32.reduceToNat] at h
  simp only [Char.toNat]
  omega

end StyleBundler.Text
