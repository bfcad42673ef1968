import StyleBundler.Script.Cursor
import StyleBundler.Proofs.Script.Placing
import StyleBundler.Proofs.Text.Cut

/-!
Reading by a byte offset is reading the characters. At the offset where a text goes on (`At`) each
loop goes as far as the scanner of the characters does and gives what that gives (`skipWhile_eq`,
`quoted_eq`, `template_eq`, …). What the loops look at are single bytes, and the bytes of a
character outside ASCII are passed one by one (`At.skip`): none of them is a sign. So an offset may
be inside a character, behind an escape, but a slice is taken at none of these.
-/

namespace StyleBundler.Script.Cursor

open Text Lexer

/-- A character outside ASCII, or a byte of one. -/
def IsWide (c : Char) : Prop := 0x80 ≤ c.toNat

instance (c : Char) : Decidable (IsWide c) := inferInstanceAs (Decidable (_ ≤ _))

theorem utf8Size_of_not_isWide {c : Char} (h : ¬IsWide c) : c.utf8Size = 1 := by
  rw [Char.utf8Size_eq_one_iff, UInt32.le_iff_toNat_le]
  exact Nat.le_of_lt_succ (Nat.lt_of_not_le h)

theorem byteLength_ascii {c : Char} (h : ¬IsWide c) (cs : List Char) :
    byteLength (c :: cs) = 1 + byteLength cs := by
  rw [byteLength_cons, utf8Size_of_not_isWide h]

theorem toNat_ofUInt8 (b : UInt8) : (Char.ofUInt8 b).toNat = b.toNat := UInt8.toNat_toUInt32 b

theorem isWide_of_mem_encode {c : Char} (h : IsWide c) {b : UInt8}
    (hb : b ∈ String.utf8EncodeChar c) : IsWide (Char.ofUInt8 b) := by
  have hc : ¬c.val.toNat ≤ 127 := Nat.not_le.mpr h
  rw [IsWide, toNat_ofUInt8]
  simp only [String.utf8EncodeChar, hc, if_false] at hb
  -- In each form the first byte starts at `0xc0` or above, and the others at `0x80`.
  split at hb
  · simp only [List.mem_cons, List.not_mem_nil, or_false] at hb
    rcases hb with rfl | rfl <;> rw [UInt8.toNat_ofNat'] <;> omega
  split at hb
  · simp only [List.mem_cons, List.not_mem_nil, or_false] at hb
    rcases hb with rfl | rfl | rfl <;> rw [UInt8.toNat_ofNat'] <;> omega
  · simp only [List.mem_cons, List.not_mem_nil, or_false] at hb
    rcases hb with rfl | rfl | rfl | rfl <;> rw [UInt8.toNat_ofNat'] <;> omega

theorem bytes_append (a b : List Char) : bytes (a ++ b) = bytes a ++ bytes b := by
  simp [bytes]

theorem length_bytes (cs : List Char) : (bytes cs).length = byteLength cs := by
  induction cs with
  | nil => rfl
  | cons c cs ih =>
      rw [← List.singleton_append, bytes_append, List.length_append, ih, byteLength_append]
      simp [bytes]

theorem bytes_singleton {c : Char} (h : ¬IsWide c) : bytes [c] = [c] := by
  have hb := String.utf8EncodeChar_eq_singleton (utf8Size_of_not_isWide h)
  have hc : Char.ofUInt8 c.val.toUInt8 = c := by
    have hlt : c.val.toNat < 2 ^ 8 := Nat.lt_trans (Nat.lt_of_not_le h) (by decide)
    refine Char.ext (UInt32.toNat_inj.mp ((toNat_ofUInt8 _).trans ?_))
    rw [UInt32.toNat_toUInt8, Nat.mod_eq_of_lt hlt]
  simp only [bytes, List.flatMap_singleton, hb, List.map_singleton, hc]

theorem peek_eq_none {cs : List Char} {pos : Nat} (h : byteLength cs ≤ pos) :
    peek cs pos = none :=
  List.getElem?_eq_none (by rwa [length_bytes])

/-- At that offset the text goes on with `r`. -/
def At (cs : List Char) (pos : Nat) (r : List Char) : Prop :=
  ∃ a, cs = a ++ r ∧ byteLength a = pos

theorem at_zero (cs : List Char) : At cs 0 cs := ⟨[], rfl, rfl⟩

namespace At

variable {cs a r : List Char} {c : Char} {pos : Nat}

theorem append (h : At cs pos (a ++ r)) : At cs (pos + byteLength a) r := by
  obtain ⟨front, rfl, rfl⟩ := h
  exact ⟨front ++ a, (List.append_assoc _ _ _).symm, byteLength_append _ _⟩

theorem tail (h : At cs pos (c :: r)) : At cs (pos + c.utf8Size) r :=
  append (a := [c]) h

theorem rest {text rest : List Char} (h : At cs pos r) (hsplit : Splits r text rest) :
    At cs (pos + byteLength text) rest :=
  append (hsplit.symm ▸ h)

theorem stop (h : At cs pos r) : pos + byteLength r = byteLength cs := by
  obtain ⟨front, rfl, rfl⟩ := h
  rw [byteLength_append]

theorem cut? (h : At cs pos r) : ∃ front, Text.cut? pos cs = some (front, r) := by
  obtain ⟨front, rfl, rfl⟩ := h
  exact ⟨front, cut?_append front r⟩

theorem slice? (h : At cs pos (a ++ r)) :
    Text.slice? cs ⟨pos, pos + byteLength a⟩ = some a := by
  obtain ⟨front, rfl, rfl⟩ := h
  exact slice?_eq_some_iff.mpr ⟨front, r, rfl, rfl, rfl⟩

theorem nextChar? (h : At cs pos r) : Cursor.nextChar? cs pos = some r.head? := by
  obtain ⟨front, hcut⟩ := h.cut?
  rw [Cursor.nextChar?, hcut, Option.map_some]

theorem peek_nil (h : At cs pos []) : peek cs pos = none :=
  peek_eq_none (Nat.le_of_eq h.stop.symm)

theorem peek_add (h : At cs pos (c :: r)) {i : Nat} (hi : i < c.utf8Size) :
    peek cs (pos + i) = (bytes [c])[i]? := by
  obtain ⟨front, rfl, rfl⟩ := h
  have hlength : (bytes [c]).length = c.utf8Size := length_bytes [c]
  rw [peek, ← List.singleton_append, bytes_append, bytes_append, ← length_bytes front,
    List.getElem?_append_right (Nat.le_add_right _ _), Nat.add_sub_cancel_left,
    List.getElem?_append_left (hlength ▸ hi)]

theorem peek_ascii (h : At cs pos (c :: r)) (hc : ¬IsWide c) : peek cs pos = some c := by
  have hpeek := h.peek_add (Char.utf8Size_pos c)
  rwa [bytes_singleton hc] at hpeek

theorem peek_wide (h : At cs pos (c :: r)) (hc : IsWide c) {i : Nat} (hi : i < c.utf8Size) :
    ∃ b, peek cs (pos + i) = some b ∧ IsWide b := by
  have hlength : (bytes [c]).length = c.utf8Size := length_bytes [c]
  refine ⟨(bytes [c])[i], by rw [h.peek_add hi, List.getElem?_eq_getElem], ?_⟩
  have hmem : (bytes [c])[i] ∈ (String.utf8EncodeChar c).map Char.ofUInt8 := by
    simp only [bytes, List.flatMap_singleton, List.getElem_mem]
  obtain ⟨b, hb, hbyte⟩ := List.mem_map.mp hmem
  rw [← hbyte]
  exact isWide_of_mem_encode hc hb

/-- The byte at the start of a character is that character, or one as wide. -/
theorem exists_peek (h : At cs pos (c :: r)) :
    ∃ b, peek cs pos = some b ∧ (b = c ∨ IsWide c ∧ IsWide b) := by
  by_cases hc : IsWide c
  · obtain ⟨b, hpeek, hb⟩ := h.peek_wide hc (Char.utf8Size_pos c)
    exact ⟨b, hpeek, .inr ⟨hc, hb⟩⟩
  · exact ⟨c, h.peek_ascii hc, .inl rfl⟩

theorem peek_eq_iff (h : At cs pos r) (hc : ¬IsWide c) :
    peek cs pos = some c ↔ r.head? = some c := by
  cases r with
  | nil => rw [h.peek_nil, List.head?_nil]
  | cons d r =>
      obtain ⟨b, hpeek, rfl | ⟨hd, hb⟩⟩ := h.exists_peek
      · rw [hpeek, List.head?_cons]
      · rw [hpeek, List.head?_cons, Option.some.injEq, Option.some.injEq]
        exact iff_of_false (fun heq => hc (heq ▸ hb)) (fun heq => hc (heq ▸ hd))

/-- What goes on in the same way behind a wide byte does so from inside a character as from behind
it. -/
theorem skip {α : Type} {f : Nat → α} (h : At cs pos (c :: r))
    (hf : ∀ p b, peek cs p = some b → IsWide b → f p = f (p + 1)) {i : Nat} (hi : i ≤ c.utf8Size)
    (hwide : IsWide c ∨ 0 < i) : f (pos + i) = f (pos + c.utf8Size) := by
  by_cases hc : IsWide c
  · obtain ⟨n, hn⟩ := Nat.exists_eq_add_of_le hi
    induction n generalizing i with
    | zero => rw [hn, Nat.add_zero]
    | succ n ih =>
        obtain ⟨b, hpeek, hb⟩ := h.peek_wide hc (i := i) (by omega)
        rw [hf _ b hpeek hb, Nat.add_assoc]
        exact ih (by omega) (.inl hc) (by omega)
  · have hsize := utf8Size_of_not_isWide hc
    have hpos := hwide.resolve_left hc
    rw [show i = c.utf8Size by omega]

/-- A character of a class is passed as a whole if each byte of the class is passed. -/
theorem pass {α : Type} {f : Nat → α} {p : Char → Prop} (h : At cs pos (c :: r))
    (hf : ∀ q b, peek cs q = some b → p b → f q = f (q + 1)) (hc : p c)
    (hwide : IsWide c → ∀ b, IsWide b → p b) : f pos = f (pos + c.utf8Size) := by
  by_cases hw : IsWide c
  · exact h.skip (fun q b hpeek hb => hf q b hpeek (hwide hw b hb)) (Nat.zero_le _) (.inl hw)
  · rw [hf pos c (h.peek_ascii hw) hc, utf8Size_of_not_isWide hw]

end At

variable {cs r : List Char} {pos : Nat}

theorem skipWhile_eq {p : Char → Bool} (hp : ∀ c d, IsWide c → IsWide d → p c = p d)
    (h : At cs pos r) : skipWhile cs p pos = pos + byteLength (r.takeWhile p) := by
  induction r generalizing pos with
  | nil =>
      rw [skipWhile, onByte_none h.peek_nil]
      rfl
  | cons c r ih =>
      by_cases hc : p c = true
      · have hpass : skipWhile cs p pos = skipWhile cs p (pos + c.utf8Size) := by
          refine h.pass (p := (p · = true)) ?_ hc fun hw b hb => (hp b c hb hw).trans hc
          intro q b hpeek hb
          rw [skipWhile, onByte_some hpeek]
          exact if_pos hb
        rw [hpass, ih h.tail, List.takeWhile_cons_of_pos hc, byteLength_cons, Nat.add_assoc]
      · obtain ⟨b, hpeek, hb⟩ := h.exists_peek
        have hb : ¬p b = true := by
          rcases hb with rfl | ⟨hw, hb⟩
          · exact hc
          · rwa [hp b c hb hw]
        rw [skipWhile, onByte_some hpeek, List.takeWhile_cons_of_neg hc]
        exact if_neg hb

theorem settle_eq (h : At cs pos r) : settle cs pos = some pos := by
  obtain ⟨front, hcut⟩ := h.cut?
  rw [settle, hcut]
  rfl

theorem bne_of_isWide {c d : Char} (hd : ¬IsWide d) (hc : IsWide c) : (c != d) = true := by
  rw [bne_iff_ne]
  rintro rfl
  exact hd hc

/-- A line comment is skipped from its first sign on. -/
theorem lineComment_eq (h : At cs pos ('/' :: r)) :
    skipWhile cs (· != '\n') pos = pos + byteLength ('/' :: (lineComment r).text) := by
  have hwide : ∀ c d, IsWide c → IsWide d → (c != '\n') = (d != '\n') := fun c d hc hd =>
    (bne_of_isWide (by decide) hc).trans (bne_of_isWide (by decide) hd).symm
  exact skipWhile_eq hwide h

theorem blockComment_pass {c : Char} (h : At cs pos (c :: r))
    (hother : ¬(c = '*' ∧ r.head? = some '/')) :
    blockComment cs pos = blockComment cs (pos + c.utf8Size) := by
  by_cases hstar : c = '*'
  · subst hstar
    have hnext : At cs (pos + 1) r := h.tail
    have hslash : peek cs (pos + 1) ≠ some '/' := by
      rw [Ne, hnext.peek_eq_iff (by decide)]
      exact fun hhead => hother ⟨rfl, hhead⟩
    rw [blockComment, onByte_some (h.peek_ascii (by decide))]
    simp only [hslash, and_false, if_false]
    rfl
  · refine h.pass (p := (· ≠ '*')) ?_ hstar ?_
    · intro q b hpeek hb
      rw [blockComment, onByte_some hpeek]
      simp only [hb, false_and, if_false]
    · rintro - b hb rfl
      exact absurd hb (by decide)

theorem blockComment_eq (h : At cs pos r) :
    blockComment cs pos = pos + byteLength (Lexer.blockComment r).text := by
  induction r using Lexer.blockComment.induct generalizing pos with
  | case1 =>
      rw [blockComment, onByte_none h.peek_nil]
      rfl
  | case2 r =>
      have hslash : peek cs (pos + 1) = some '/' := h.tail.peek_ascii (by decide)
      rw [blockComment, onByte_some (h.peek_ascii (by decide))]
      simp only [hslash, and_self, if_true]
      rfl
  | case3 c r hc ih =>
      have hother : ¬(c = '*' ∧ r.head? = some '/') := by
        rintro ⟨rfl, hhead⟩
        obtain ⟨rest, rfl⟩ := List.head?_eq_some_iff.mp hhead
        exact hc rest rfl rfl
      rw [blockComment_pass h hother, ih h.tail, blockComment_other hother, byteLength_cons,
        Nat.add_assoc]

theorem not_isWide_of_isAlphanum {c : Char} (h : c.isAlphanum = true) : ¬IsWide c := by
  change ((decide ('A'.val ≤ c.val ∧ c.val ≤ 'Z'.val) ||
    (decide ('a'.val ≤ c.val) && decide (c.val ≤ 'z'.val))) ||
    (decide ('0'.val ≤ c.val) && decide (c.val ≤ '9'.val))) = true at h
  simp only [Bool.or_eq_true, Bool.and_eq_true, decide_eq_true_eq, UInt32.le_iff_toNat_le] at h
  change ((65 ≤ c.toNat ∧ c.toNat ≤ 90) ∨ (97 ≤ c.toNat ∧ c.toNat ≤ 122)) ∨
    (48 ≤ c.toNat ∧ c.toNat ≤ 57) at h
  rw [IsWide]
  omega

theorem isAlpha_of_isWide {c : Char} (h : IsWide c) : c.isAlpha = false := by
  rw [Bool.eq_false_iff]
  exact fun hc => not_isWide_of_isAlphanum (by simp [Char.isAlphanum, hc]) h

theorem isDigit_of_isWide {c : Char} (h : IsWide c) : c.isDigit = false := by
  rw [Bool.eq_false_iff]
  exact fun hc => not_isWide_of_isAlphanum (by simp [Char.isAlphanum, hc]) h

theorem regexFlags_eq (h : At cs pos r) :
    regexFlags cs pos = some (pos + byteLength (r.takeWhile Char.isAlpha)) := by
  have hstop := h.rest (List.takeWhile_append_dropWhile (p := Char.isAlpha))
  have hle : pos + byteLength (r.takeWhile Char.isAlpha) ≤ byteLength cs := by
    rw [← hstop.stop]
    exact Nat.le_add_right _ _
  have hwide : ∀ c d, IsWide c → IsWide d → c.isAlpha = d.isAlpha := fun c d hc hd =>
    (isAlpha_of_isWide hc).trans (isAlpha_of_isWide hd).symm
  rw [regexFlags, skipWhile_eq hwide h, Nat.min_eq_left hle]
  exact settle_eq hstop

/-- An escape at the end of the text is taken two bytes long; the end is found again. -/
theorem regexFlags_end (cs : List Char) :
    regexFlags cs (byteLength cs + 1) = some (byteLength cs) := by
  have hend : At cs (byteLength cs) [] := ⟨cs, (List.append_nil cs).symm, rfl⟩
  rw [regexFlags, skipWhile, onByte_none (peek_eq_none (Nat.le_succ _)),
    Nat.min_eq_right (Nat.le_succ _)]
  exact settle_eq hend

/-- No sign of a regular expression. -/
def IsRegexPlain (c : Char) : Prop := c ∉ ['\n', '\\', '[', ']', '/']

theorem isRegexPlain_of_isWide {b : Char} (hb : IsWide b) : IsRegexPlain b := by
  simp only [IsRegexPlain, List.mem_cons, List.not_mem_nil, or_false]
  rintro (rfl | rfl | rfl | rfl | rfl) <;> exact absurd hb (by decide)

theorem regex_plain (inClass : Bool) {b : Char} (hpeek : peek cs pos = some b)
    (hb : IsRegexPlain b) : regex cs inClass pos = regex cs inClass (pos + 1) := by
  simp only [IsRegexPlain, List.mem_cons, List.not_mem_nil, or_false, not_or] at hb
  rw [regex, onByte_some hpeek]
  simp only [hb, false_and, if_false]

/-- Any other sign is passed, and a bracket opens or closes a class. -/
theorem regex_pass {inClass : Bool} {c : Char} (h : At cs pos (c :: r)) (hn : c ≠ '\n')
    (hb : c ≠ '\\') (hs : ¬(decide (c = '/') && !inClass) = true) :
    regex cs inClass pos =
      regex cs (if c = '[' then true else if c = ']' then false else inClass)
        (pos + c.utf8Size) := by
  by_cases hopen : c = '['
  · subst hopen
    rw [regex, onByte_some (h.peek_ascii (by decide))]
    rfl
  by_cases hclose : c = ']'
  · subst hclose
    rw [regex, onByte_some (h.peek_ascii (by decide))]
    rfl
  rw [if_neg hopen, if_neg hclose]
  by_cases hslash : c = '/'
  · subst hslash
    obtain rfl : inClass = true := by simpa using hs
    rw [regex, onByte_some (h.peek_ascii (by decide))]
    rfl
  · exact h.pass (fun q b hpeek hb => regex_plain inClass hpeek hb)
      (by simp [IsRegexPlain, hn, hb, hopen, hclose, hslash])
      fun _ b hb => isRegexPlain_of_isWide hb

theorem regex_eq {inClass : Bool} (h : At cs pos r) :
    regex cs inClass pos = some (pos + byteLength (Lexer.regex inClass r).text) := by
  induction inClass, r using Lexer.regex.induct generalizing pos with
  | case1 inClass =>
      rw [regex, onByte_none h.peek_nil]
      exact regexFlags_eq h
  | case2 inClass r =>
      rw [regex, onByte_some (h.peek_ascii (by decide)), regex_newline]
      rfl
  | case3 inClass hn =>
      have hend : pos + 1 = byteLength cs := h.stop
      rw [regex, onByte_some (h.peek_ascii (by decide))]
      simp only [hn, if_false, if_true]
      have hpast : pos + 2 = byteLength cs + 1 := congrArg (· + 1) hend
      rw [hpast, regex, onByte_none (peek_eq_none (Nat.le_succ _))]
      exact (regexFlags_end cs).trans (congrArg some hend.symm)
  | case4 inClass e r hn ih =>
      have hnext : At cs (pos + 1) (e :: r) := h.tail
      have hskip := hnext.skip (f := regex cs inClass) (i := 1)
        (fun q b hpeek hb => regex_plain inClass hpeek (isRegexPlain_of_isWide hb))
        (Char.utf8Size_pos e) (.inr Nat.one_pos)
      rw [regex, onByte_some (h.peek_ascii (by decide))]
      simp only [hn, if_false, if_true]
      rw [show pos + 2 = pos + 1 + 1 from rfl, hskip, ih hnext.tail]
      simp only [Lexer.regex, hn, if_false, if_true, byteLength_cons, Nat.add_assoc]
      rfl
  | case5 inClass c r hn hb hs =>
      obtain ⟨hc, hclass⟩ : c = '/' ∧ inClass = false := by simpa using hs
      subst hc hclass
      rw [regex, onByte_some (h.peek_ascii (by decide)), regex_close]
      refine (regexFlags_eq h.tail).trans ?_
      rw [byteLength_cons, Nat.add_assoc]
  | case6 inClass c r hn hb hs ih =>
      rw [regex_pass h hn hb hs, ih h.tail, regex_other hn hb hs]
      simp only [byteLength_cons, Nat.add_assoc]

/-- From `start` up to `pos` the text is `run`, and behind that `r`. -/
structure Stretch (cs : List Char) (start : Nat) (run : List Char) (pos : Nat) (r : List Char) :
    Prop where
  at_start : At cs start (run ++ r)
  stop_eq : start + byteLength run = pos

namespace Stretch

variable {start : Nat} {run : List Char} {c : Char}

theorem nil (h : At cs pos r) : Stretch cs pos [] pos r := ⟨h, rfl⟩

theorem at_stop (h : Stretch cs start run pos r) : At cs pos r := h.stop_eq ▸ h.at_start.append

theorem slice? (h : Stretch cs start run pos r) : Text.slice? cs ⟨start, pos⟩ = some run :=
  h.stop_eq ▸ h.at_start.slice?

theorem push (h : Stretch cs start run pos (c :: r)) :
    Stretch cs start (run ++ [c]) (pos + c.utf8Size) r := by
  obtain ⟨hstart, rfl⟩ := h
  refine ⟨by rwa [List.append_assoc], ?_⟩
  rw [byteLength_append, Nat.add_assoc]
  rfl

end Stretch

/-- Neither the end of a string nor an escape. -/
def IsQuotedPlain (quote c : Char) : Prop := c ≠ quote ∧ c ≠ '\n' ∧ c ≠ '\\'

theorem quoted_plain {quote : Char} (value : List Char) (start : Nat) {b : Char}
    (hpeek : peek cs pos = some b) (hb : IsQuotedPlain quote b) :
    quoted cs quote value start pos = quoted cs quote value start (pos + 1) := by
  obtain ⟨hquote, hn, hescape⟩ := hb
  rw [quoted, onByte_some hpeek]
  simp only [hquote, hn, hescape, if_false]

theorem isQuotedPlain_of_isWide {quote b : Char} (hquote : ¬IsWide quote) (hb : IsWide b) :
    IsQuotedPlain quote b := by
  refine ⟨?_, ?_, ?_⟩ <;> rintro rfl
  · exact hquote hb
  · exact absurd hb (by decide)
  · exact absurd hb (by decide)

theorem quoted_eq {quote : Char} (hquote : ¬IsWide quote) {value run : List Char} {start : Nat}
    (h : Stretch cs start run pos r) :
    quoted cs quote value start pos =
      some (value ++ (run ++ (Lexer.quoted quote r).value),
        pos + byteLength (Lexer.quoted quote r).text) := by
  induction r using Lexer.quoted.induct quote generalizing value start run pos with
  | case1 =>
      rw [quoted, onByte_none h.at_stop.peek_nil]
      simp only [h.slice?, Option.map_some, Lexer.quoted, List.append_nil]
      rfl
  | case2 r =>
      rw [quoted, onByte_some (h.at_stop.peek_ascii hquote), quoted_close]
      simp only [h.slice?, if_true, Option.map_some, List.append_nil, byteLength_ascii hquote,
        byteLength_nil]
  | case3 r hn =>
      rw [quoted, onByte_some (h.at_stop.peek_ascii (by decide)), quoted_newline hn]
      simp only [hn, h.slice?, if_true, if_false, Option.map_some, List.append_nil]
      rfl
  | case4 hq hn =>
      have hend : At cs (pos + 1) [] := h.at_stop.tail
      rw [quoted, onByte_some (h.at_stop.peek_ascii (by decide))]
      simp only [hq, hn, h.slice?, hend.nextChar?, if_true, if_false, Option.bind_eq_bind,
        Option.bind_some, List.head?_nil]
      rw [quoted, onByte_none hend.peek_nil]
      simp only [(Stretch.nil hend).slice?, Option.map_some, List.append_nil, Lexer.quoted, hq, hn,
        if_true, if_false]
      rfl
  | case5 e r hq hn ih =>
      have hnext : At cs (pos + 1) (e :: r) := h.at_stop.tail
      rw [quoted, onByte_some (h.at_stop.peek_ascii (by decide))]
      simp only [hq, hn, h.slice?, hnext.nextChar?, if_true, if_false, Option.bind_eq_bind,
        Option.bind_some, List.head?_cons]
      rw [ih (.nil hnext.tail)]
      have hsize : '\\'.utf8Size = 1 := rfl
      simp only [Lexer.quoted, hq, hn, if_true, if_false, List.nil_append, List.append_assoc,
        byteLength_cons, hsize, Nat.add_assoc]
  | case6 c r hq hn hb ih =>
      have hpass := h.at_stop.pass (f := quoted cs quote value start) (p := IsQuotedPlain quote)
        (fun q b hpeek hb => quoted_plain value start hpeek hb) ⟨hq, hn, hb⟩
        fun _ b hb => isQuotedPlain_of_isWide hquote hb
      rw [hpass, ih h.push, quoted_other hq hn hb]
      simp only [List.append_assoc, List.singleton_append, byteLength_cons, Nat.add_assoc]

/-- Wherever a template is read by its offset, its chunks and its end are those of its text. -/
def TemplateRead (cs r : List Char) : Prop :=
  ∀ {chunks : List (List Char)} {start : Nat} {run : List Char} {pos : Nat},
    Stretch cs start run pos r →
      template cs chunks start pos =
        some (chunks ++ run.foldr pushChunk (readTemplate r).value,
          pos + byteLength (readTemplate r).text)

/-- Wherever the code of an interpolation is read by its offset, its end is that of its text; the
brace around it is counted. -/
def CodeRead (cs : List Char) (depth : Nat) (r : List Char) : Prop :=
  ∀ {pos : Nat}, At cs pos r →
    interpolation cs (depth + 1) pos = some (pos + byteLength (readCode depth r).text)

/-- No sign of a template. -/
def IsTemplatePlain (c : Char) : Prop := c ≠ '\x60' ∧ c ≠ '\\' ∧ c ≠ '$'

theorem template_plain (chunks : List (List Char)) (start : Nat) {b : Char}
    (hpeek : peek cs pos = some b) (hb : IsTemplatePlain b) :
    template cs chunks start pos = template cs chunks start (pos + 1) := by
  obtain ⟨hclose, hescape, hopen⟩ := hb
  rw [template, onByte_some hpeek]
  simp only [hclose, hescape, hopen, false_and, if_false]

theorem isTemplatePlain_of_isWide {b : Char} (hb : IsWide b) : IsTemplatePlain b := by
  refine ⟨?_, ?_, ?_⟩ <;> rintro rfl <;> exact absurd hb (by decide)

/-- A sign that neither ends a template nor starts an escape or an interpolation is passed. -/
theorem template_pass (chunks : List (List Char)) (start : Nat) {c : Char}
    (h : At cs pos (c :: r)) (hc : c ≠ '\x60') (hb : c ≠ '\\')
    (ho : ¬(c = '$' ∧ r.head? = some '{')) :
    template cs chunks start pos = template cs chunks start (pos + c.utf8Size) := by
  by_cases hdollar : c = '$'
  · subst hdollar
    have hnext : At cs (pos + 1) r := h.tail
    have hbrace : peek cs (pos + 1) ≠ some '{' := by
      rw [Ne, hnext.peek_eq_iff (by decide)]
      exact fun hhead => ho ⟨rfl, hhead⟩
    rw [template, onByte_some (h.peek_ascii (by decide))]
    simp only [hc, hb, hbrace, and_false, if_false]
    rfl
  · exact h.pass (fun q b hpeek hb => template_plain chunks start hpeek hb) ⟨hc, hb, hdollar⟩
      fun _ b hb => isTemplatePlain_of_isWide hb

/-- No sign of the code of an interpolation. -/
def IsCodePlain (c : Char) : Prop := c ∉ ['{', '}', '\'', '"', '\x60', '/']

theorem isCodePlain_of_isWide {b : Char} (hb : IsWide b) : IsCodePlain b := by
  simp only [IsCodePlain, List.mem_cons, List.not_mem_nil, or_false]
  rintro (rfl | rfl | rfl | rfl | rfl | rfl) <;> exact absurd hb (by decide)

theorem interpolation_plain (depth : Nat) {b : Char} (hpeek : peek cs pos = some b)
    (hb : IsCodePlain b) : interpolation cs depth pos = interpolation cs depth (pos + 1) := by
  simp only [IsCodePlain, List.mem_cons, List.not_mem_nil, or_false, not_or] at hb
  rw [interpolation, onByte_some hpeek]
  simp only [hb, false_and, or_self, if_false, Option.bind_eq_bind, Option.bind_some,
    Nat.lt_succ_self, if_true]

/-- A sign that is no brace and opens neither a literal nor a comment is passed. -/
theorem interpolation_pass (depth : Nat) {c : Char} (h : At cs pos (c :: r)) (ho : c ≠ '{')
    (hc : c ≠ '}') (hs : ¬(c = '/' ∧ (r.head? = some '/' ∨ r.head? = some '*'))) (ht : c ≠ '\x60')
    (hq : ¬(c = '\'' ∨ c = '"')) :
    interpolation cs depth pos = interpolation cs depth (pos + c.utf8Size) := by
  by_cases hslash : c = '/'
  · subst hslash
    have hnext : At cs (pos + 1) r := h.tail
    have hline : peek cs (pos + 1) ≠ some '/' := by
      rw [Ne, hnext.peek_eq_iff (by decide)]
      exact fun hhead => hs ⟨rfl, .inl hhead⟩
    have hblock : peek cs (pos + 1) ≠ some '*' := by
      rw [Ne, hnext.peek_eq_iff (by decide)]
      exact fun hhead => hs ⟨rfl, .inr hhead⟩
    rw [interpolation, onByte_some (h.peek_ascii (by decide))]
    simp only [hline, hblock, and_false, if_false, Option.bind_eq_bind, Option.bind_some,
      Nat.lt_succ_self, if_true]
    rfl
  · obtain ⟨hsingle, hdouble⟩ := not_or.mp hq
    exact h.pass (fun q b hpeek hb => interpolation_plain depth hpeek hb)
      (by simp [IsCodePlain, ho, hc, ht, hsingle, hdouble, hslash])
      fun _ b hb => isCodePlain_of_isWide hb

/-- Behind a piece that is not empty the code is read on. -/
theorem CodeRead.onward {depth stop : Nat} (h : CodeRead cs depth r) (hstop : At cs stop r)
    (hlt : pos < stop) :
    (if pos < stop then interpolation cs (depth + 1) stop else none) =
      some (stop + byteLength (readCode depth r).text) := by
  rw [if_pos hlt]
  exact h hstop

/-- The last chunk of a template that is not closed ends with the text, also behind an escape of
nothing. -/
theorem template_end (chunks : List (List Char)) {start stop : Nat} {run : List Char}
    (h : Stretch cs start run stop []) (hpos : stop ≤ pos) :
    template cs chunks start pos = some (chunks ++ [run], stop) := by
  have hend : stop = byteLength cs := h.at_stop.stop
  have hstart : min start stop = start := by
    rw [← h.stop_eq]
    exact Nat.min_eq_left (Nat.le_add_right _ _)
  rw [template, onByte_none (peek_eq_none (hend ▸ hpos)), templateEnd]
  simp only [← hend, hstart, h.slice?, Option.bind_eq_bind, Option.bind_some]

theorem template_eq :
    (∀ r, TemplateRead cs r) ∧ ∀ depth r, CodeRead cs depth r := by
  apply scan_induct
  case nil =>
    intro chunks start run pos h
    rw [template_end chunks h (Nat.le_refl pos), readTemplate_nil, foldr_pushChunk, List.append_nil]
    rfl
  case close =>
    intro r chunks start run pos h
    rw [template, onByte_some (h.at_stop.peek_ascii (by decide)), readTemplate_close,
      foldr_pushChunk]
    simp only [h.slice?, if_true, Option.bind_eq_bind, Option.bind_some, List.append_nil]
    rfl
  case escapeEnd =>
    intro chunks start run pos h
    rw [template, onByte_some (h.at_stop.peek_ascii (by decide)), readTemplate_escapeEnd,
      foldr_pushChunk]
    exact template_end chunks h.push (Nat.le_succ (pos + 1))
  case escape =>
    intro c r ih chunks start run pos h
    have hpush : Stretch cs start (run ++ ['\\']) (pos + 1) (c :: r) := h.push
    have hskip := hpush.at_stop.skip (f := template cs chunks start) (i := 1)
      (fun q b hpeek hb => template_plain chunks start hpeek (isTemplatePlain_of_isWide hb))
      (Char.utf8Size_pos c) (.inr Nat.one_pos)
    rw [template, onByte_some (h.at_stop.peek_ascii (by decide)), readTemplate_escape]
    refine (hskip.trans (ih hpush.push)).trans ?_
    rw [List.foldr_append, List.foldr_append, byteLength_cons, byteLength_cons, Nat.add_assoc,
      Nat.add_assoc]
    rfl
  case code =>
    intro r ihcode ih chunks start run pos h
    have hopen : At cs (pos + 1) ('{' :: r) := h.at_stop.tail
    have hcode : At cs (pos + 2) r := hopen.tail
    have hbrace : peek cs (pos + 1) = some '{' := hopen.peek_ascii (by decide)
    rw [template, onByte_some (h.at_stop.peek_ascii (by decide)), readTemplate_open,
      foldr_pushChunk]
    have hlt : pos < pos + 2 + byteLength (readCode 0 r).text := by omega
    simp only [h.slice?, hbrace, ihcode hcode, ih (.nil (hcode.rest (readCode_splits 0 r))), hlt,
      Option.bind_eq_bind, Option.bind_some, and_self, if_true, List.foldr_nil]
    rw [byteLength_ascii (by decide), byteLength_ascii (by decide), byteLength_append,
      List.append_assoc, List.append_nil]
    exact congrArg (some <| Prod.mk (chunks ++ run :: (readTemplate (readCode 0 r).rest).value) ·)
      (by omega)
  case other =>
    intro c r hc hb ho ih chunks start run pos h
    rw [template_pass chunks start h.at_stop hc hb ho, ih h.push, readTemplate_other hc hb ho,
      List.foldr_append, byteLength_cons, Nat.add_assoc]
    rfl
  case codeNil =>
    intro depth pos h
    rw [interpolation, onByte_none h.peek_nil, readCode_nil]
    rfl
  case codeEnd =>
    intro r pos h
    rw [interpolation, onByte_some (h.peek_ascii (by decide)), readCode_end]
    rfl
  case codeOpen =>
    intro depth r ih pos h
    rw [interpolation, onByte_some (h.peek_ascii (by decide)), readCode_open]
    refine (ih h.tail).trans ?_
    rw [byteLength_cons, Nat.add_assoc]
  case codeClose =>
    intro depth r ih pos h
    rw [interpolation, onByte_some (h.peek_ascii (by decide)), readCode_close]
    refine (ih h.tail).trans ?_
    rw [byteLength_cons, Nat.add_assoc]
  case codeLine =>
    intro depth r ih pos h
    have hnext : At cs (pos + 1) ('/' :: r) := h.tail
    have hslash : peek cs (pos + 1) = some '/' := hnext.peek_ascii (by decide)
    rw [interpolation, onByte_some (h.peek_ascii (by decide)), readCode_lineComment]
    simp only [hslash, lineComment_eq h, and_self, if_true, Option.bind_eq_bind, Option.bind_some]
    refine (ih.onward (h.rest (lineComment_splits r).cons.cons) ?_).trans ?_
    · rw [byteLength_ascii (by decide)]
      omega
    · rw [← List.cons_append, ← List.cons_append, byteLength_append, Nat.add_assoc]
  case codeBlock =>
    intro depth r ih pos h
    have hnext : At cs (pos + 1) ('*' :: r) := h.tail
    have hstar : peek cs (pos + 1) = some '*' := hnext.peek_ascii (by decide)
    have hinside : At cs (pos + 2) r := hnext.tail
    rw [interpolation, onByte_some (h.peek_ascii (by decide)), readCode_blockComment]
    simp only [hstar, blockComment_eq hinside, and_self, if_true, Option.bind_eq_bind,
      Option.bind_some]
    refine (ih.onward (hinside.rest (blockComment_splits r)) (by omega)).trans ?_
    rw [byteLength_ascii (by decide), byteLength_ascii (by decide), byteLength_append]
    exact congrArg some (by omega)
  case codeTemplate =>
    intro depth r ihinner ih pos h
    have hinside : At cs (pos + 1) r := h.tail
    rw [interpolation, onByte_some (h.peek_ascii (by decide)), readCode_template]
    simp only [ihinner (.nil hinside), if_true, Option.map_some, Option.bind_eq_bind,
      Option.bind_some]
    refine (ih.onward (hinside.rest (readTemplate_splits r)) (by omega)).trans ?_
    rw [byteLength_ascii (by decide), byteLength_append]
    exact congrArg some (by omega)
  case codeQuoted =>
    intro depth c r hq ih pos h
    have hquote : ¬IsWide c := by rcases hq with rfl | rfl <;> decide
    have hopen : c ≠ '{' := by rcases hq with rfl | rfl <;> decide
    have hclose : c ≠ '}' := by rcases hq with rfl | rfl <;> decide
    have hinside : At cs (pos + 1) r := utf8Size_of_not_isWide hquote ▸ h.tail
    rw [interpolation, onByte_some (h.peek_ascii hquote), readCode_quoted depth hq]
    simp only [hopen, hclose, hq, if_true, if_false, quoted_eq hquote (.nil hinside),
      Option.map_some, Option.bind_eq_bind, Option.bind_some]
    rw [ih.onward (hinside.rest (quoted_splits c r)) (by omega), byteLength_ascii hquote,
      byteLength_append]
    exact congrArg some (by omega)
  case codeOther =>
    intro depth c r ho hc hs ht hq ih pos h
    rw [interpolation_pass (depth + 1) h ho hc hs ht hq, ih h.tail, readCode_other ho hc hs ht hq,
      byteLength_cons, Nat.add_assoc]

theorem isSpace_of_isWide {c : Char} (h : IsWide c) : isSpace c = false := by
  rw [Bool.eq_false_iff]
  intro hc
  simp only [isSpace, Bool.or_eq_true, beq_iff_eq] at hc
  rcases hc with (((rfl | rfl) | rfl) | rfl) | rfl <;> exact absurd h (by decide)

theorem isNumberChar_of_isWide {c : Char} (h : IsWide c) : isNumberChar c = false := by
  rw [Bool.eq_false_iff]
  intro hc
  simp only [isNumberChar, Bool.or_eq_true, beq_iff_eq] at hc
  rcases hc with (hc | rfl) | rfl
  · exact not_isWide_of_isAlphanum hc h
  · exact absurd h (by decide)
  · exact absurd h (by decide)

theorem isNameChar_of_isWide {c : Char} (h : IsWide c) : isNameChar c = true := by
  rw [isNameChar, Bool.or_eq_true]
  exact .inr (decide_eq_true h)

theorem name_eq {c : Char} (h : At cs pos (c :: r)) (hname : isNameChar c = true) :
    name cs pos =
      some (c :: r.takeWhile isNameChar, pos + byteLength (c :: r.takeWhile isNameChar)) := by
  have hwide : ∀ c d, IsWide c → IsWide d → isNameChar c = isNameChar d := fun c d hc hd =>
    (isNameChar_of_isWide hc).trans (isNameChar_of_isWide hd).symm
  have htake : (c :: r).takeWhile isNameChar = c :: r.takeWhile isNameChar :=
    List.takeWhile_cons_of_pos hname
  have hslice : slice? cs ⟨pos, pos + byteLength (c :: r.takeWhile isNameChar)⟩ =
      some (c :: r.takeWhile isNameChar) := by
    refine At.slice? (r := r.dropWhile isNameChar) ?_
    rwa [List.cons_append, List.takeWhile_append_dropWhile]
  rw [name, skipWhile_eq hwide h, htake]
  simp only [hslice, Option.map_some]

theorem number_eq {c : Char} (h : At cs pos (c :: r)) (hnumber : isNumberChar c = true) :
    skipWhile cs isNumberChar pos = pos + byteLength (c :: r.takeWhile isNumberChar) := by
  have hwide : ∀ c d, IsWide c → IsWide d → isNumberChar c = isNumberChar d := fun c d hc hd =>
    (isNumberChar_of_isWide hc).trans (isNumberChar_of_isWide hd).symm
  rw [skipWhile_eq hwide h, List.takeWhile_cons_of_pos hnumber]

/-- A character outside ASCII belongs to a name, and so does each byte of one. -/
theorem next_eq_of_isWide (prior : Option TokenKind) {b c : Char} (h : At cs pos (c :: r))
    (hc : IsWide c) (hb : IsWide b) :
    next cs prior b pos =
      some ((Lexer.next prior c r).value, pos + byteLength (Lexer.next prior c r).text) := by
  have hne : ∀ {d e}, IsWide d → ¬IsWide e → d ≠ e := fun hd he heq => he (heq ▸ hd)
  have hnot : ∀ {d}, IsWide d → d ≠ '/' ∧ d ≠ '\'' ∧ d ≠ '"' ∧ d ≠ '\x60' := fun hd =>
    ⟨hne hd (by decide), hne hd (by decide), hne hd (by decide), hne hd (by decide)⟩
  simp only [next, Lexer.next, isSpace_of_isWide hb, isDigit_of_isWide hb, isNameChar_of_isWide hb,
    isSpace_of_isWide hc, isDigit_of_isWide hc, isNameChar_of_isWide hc, hnot hb, hnot hc,
    name_eq h (isNameChar_of_isWide hc), Bool.false_eq_true, false_and, or_self, if_false, if_true,
    Option.map_some]

theorem next_eq_of_ascii (prior : Option TokenKind) {c : Char} (h : At cs pos (c :: r))
    (hc : ¬IsWide c) :
    next cs prior c pos =
      some ((Lexer.next prior c r).value, pos + byteLength (Lexer.next prior c r).text) := by
  have hnext : At cs (pos + 1) r := utf8Size_of_not_isWide hc ▸ h.tail
  have hlead : ∀ text, pos + byteLength (c :: text) = pos + 1 + byteLength text := by
    intro text
    rw [byteLength_ascii hc, Nat.add_assoc]
  simp only [next, Lexer.next, hnext.peek_eq_iff (c := '/') (by decide),
    hnext.peek_eq_iff (c := '*') (by decide)]
  by_cases hspace : isSpace c = true
  · simp only [if_pos hspace, hlead, byteLength_nil, Nat.add_zero]
  simp only [if_neg hspace]
  by_cases hline : c = '/' ∧ r.head? = some '/'
  · obtain ⟨rfl, hhead⟩ := hline
    simp only [hhead, lineComment_eq h, and_self, if_true, Scan.lead]
  simp only [if_neg hline]
  by_cases hblock : c = '/' ∧ r.head? = some '*'
  · obtain ⟨rfl, hhead⟩ := hblock
    obtain ⟨r, rfl⟩ := List.head?_eq_some_iff.mp hhead
    have hinside : At cs (pos + 2) r := hnext.tail
    have hstop : pos + byteLength ('/' :: '*' :: (Lexer.blockComment r).text) =
        pos + 2 + byteLength (Lexer.blockComment r).text := by
      rw [hlead, byteLength_ascii (by decide), ← Nat.add_assoc]
    simp only [List.head?_cons, blockComment_eq hinside, and_self, if_true, Scan.lead,
      List.tail_cons, hstop]
  simp only [if_neg hblock]
  by_cases hregex : c = '/' ∧ TokenKind.opensRegex prior = true
  · simp only [if_pos hregex, regex_eq hnext, Option.map_some, Scan.lead, hlead]
  simp only [if_neg hregex]
  by_cases hquote : c = '\'' ∨ c = '"'
  · simp only [if_pos hquote, quoted_eq hc (.nil hnext), Option.map_some, Scan.lead, hlead,
      List.nil_append]
  simp only [if_neg hquote]
  by_cases htemplate : c = '\x60'
  · simp only [if_pos htemplate, template_eq.1 r (.nil hnext), Option.map_some, Scan.lead, hlead,
      List.nil_append, List.foldr_nil]
    rfl
  simp only [if_neg htemplate]
  by_cases hdigit : c.isDigit = true
  · have hnumber : isNumberChar c = true := by simp [isNumberChar, Char.isAlphanum, hdigit]
    simp only [if_pos hdigit, number_eq h hnumber]
  simp only [if_neg hdigit]
  by_cases hname : isNameChar c = true
  · simp only [if_pos hname, name_eq h hname, Option.map_some]
  · simp only [if_neg hname, hlead, byteLength_nil, Nat.add_zero]

/-- Where a lexeme starts, the bytes are read as its characters are. -/
theorem next_eq (prior : Option TokenKind) {b c : Char} (h : At cs pos (c :: r))
    (hpeek : peek cs pos = some b) :
    next cs prior b pos =
      some ((Lexer.next prior c r).value, pos + byteLength (Lexer.next prior c r).text) := by
  obtain ⟨b', hpeek', hb⟩ := h.exists_peek
  obtain rfl : b = b' := Option.some.inj (hpeek.symm.trans hpeek')
  by_cases hc : IsWide c
  · have hwide : IsWide b := hb.elim (fun heq => heq ▸ hc) And.right
    exact next_eq_of_isWide prior h hc hwide
  · obtain rfl : b = c := hb.resolve_right fun hwide => hc hwide.1
    exact next_eq_of_ascii prior h hc

theorem run_eq (found : List Token) (h : At cs pos r) :
    run cs found pos =
      some (found ++ place pos (lexemes (found.getLast?.map Token.kind) r)) := by
  generalize hprior : found.getLast?.map Token.kind = prior
  induction prior, r using lexemes.induct generalizing found pos with
  | case1 prior =>
      rw [run, onByte_none h.peek_nil, lexemes, place, List.append_nil]
  | case2 prior c r hle ih =>
      obtain ⟨b, hpeek, -⟩ := h.exists_peek
      have hrest := h.rest (next_splits prior c r)
      have hlt := Nat.lt_add_of_pos_right (n := pos) (byteLength_pos (text_next_ne_nil prior c r))
      rw [run, onByte_some hpeek]
      simp only [hprior, next_eq prior h hpeek, Option.bind_eq_bind, Option.bind_some, if_pos hlt]
      rw [lexemes, place]
      cases hkind : (Lexer.next prior c r).value with
      | none =>
          rw [hkind] at ih
          rw [Option.map_none, Option.toList_none, List.append_nil]
          exact ih found hrest hprior
      | some kind =>
          rw [hkind] at ih
          rw [Option.map_some, Option.toList_some]
          refine (ih _ hrest (by rw [List.getLast?_concat]; rfl)).trans ?_
          rw [List.append_assoc, List.singleton_append]

end StyleBundler.Script.Cursor

namespace StyleBundler.Script

/-- Read by a byte offset a source has the same tokens. -/
theorem tokenizeBytes_eq (source : String) : tokenizeBytes source = some (tokenize source) :=
  Cursor.run_eq [] (Cursor.at_zero source.toList)

end StyleBundler.Script
