import Mathlib.Data.List.Pairwise
import StyleBundler.Proofs.Import.Tokens
import StyleBundler.Proofs.Script.Chain

/-!
Tokens and the lexemes that they come from. A stretch of the tokens of a text is a stretch of its
lexemes (`exists_stretch`), and a name is spelled as it is (`text_of_mem_lexemes`).
-/

namespace StyleBundler.Script

open Text

theorem place_append (pos : Nat) (a b : List Lexeme) :
    place pos (a ++ b) = place pos a ++ place (pos + byteLength (spell a)) b := by
  induction a generalizing pos with
  | nil => rfl
  | cons l a ih =>
      simp only [List.cons_append, place, ih, spell_cons, byteLength_append, Nat.add_assoc]
      cases l.kind <;> rfl

/-- Only where the tokens stand depends on where the lexemes do. -/
theorem map_kind_place (pos : Nat) (ls : List Lexeme) :
    (place pos ls).map Token.kind = ls.filterMap Lexeme.kind := by
  induction ls generalizing pos with
  | nil => rfl
  | cons l ls ih =>
      simp only [place]
      cases hkind : l.kind with
      | none => rw [List.filterMap_cons_none hkind, ← ih]
      | some kind => rw [List.filterMap_cons_some hkind, List.map_cons, ih]

theorem firstKind?_eq (pos : Nat) (ls : List Lexeme) :
    firstKind? ls = (place pos ls).head?.map Token.kind := by
  rw [← List.head?_map, map_kind_place, firstKind?, List.head?_filterMap]

theorem lastKind_eq (prior : Option TokenKind) (pos : Nat) (ls : List Lexeme) :
    lastKind prior ls = ((place pos ls).getLast?.map Token.kind).or prior := by
  rw [← List.getLast?_map, map_kind_place]
  induction ls generalizing prior with
  | nil => rfl
  | cons l ls ih =>
      rw [lastKind_cons, ih]
      cases hkind : l.kind with
      | none => rw [List.filterMap_cons_none hkind]; rfl
      | some kind =>
          rw [List.filterMap_cons_some hkind, List.getLast?_cons]
          cases (ls.filterMap Lexeme.kind).getLast? <;> rfl

theorem bounds_of_mem_place {pos : Nat} {ls : List Lexeme} (hls : WellSpelled ls) {t : Token}
    (h : t ∈ place pos ls) :
    pos ≤ t.span.start ∧ t.span.start < t.span.stop ∧
      t.span.stop ≤ pos + byteLength (spell ls) := by
  obtain ⟨hstart, hlt⟩ := start_of_mem_place hls h
  obtain ⟨a, text, b, htext, hstart', hstop⟩ := exists_split_of_mem_place h
  refine ⟨hstart, hlt, ?_⟩
  have hlength := congrArg byteLength htext
  simp only [byteLength_append] at hlength
  change byteLength (spell ls) = _ at hlength
  omega

/-- One token ends before the next one starts. -/
def InOrder (ts : List Token) : Prop :=
  (∀ t ∈ ts, t.span.start < t.span.stop) ∧ ts.Pairwise fun a b => a.span.stop ≤ b.span.start

theorem pairwise_stop_le_place (pos : Nat) {ls : List Lexeme} (h : WellSpelled ls) :
    (place pos ls).Pairwise fun a b => a.span.stop ≤ b.span.start := by
  induction ls generalizing pos with
  | nil => exact .nil
  | cons l ls ih =>
      simp only [place]
      split
      · exact List.pairwise_cons.mpr ⟨fun t ht => (start_of_mem_place h.tail ht).1, ih _ h.tail⟩
      · exact ih _ h.tail

theorem inOrder_tokenize (code : String) : InOrder (tokenize code) :=
  ⟨fun _ ht => (start_of_mem_place (wellSpelled_lexemes none code.toList) ht).2,
    pairwise_stop_le_place 0 (wellSpelled_lexemes none code.toList)⟩

namespace InOrder

variable {a b ts : List Token} {t u : Token}

theorem of_append (h : InOrder (a ++ b)) : InOrder b :=
  ⟨fun t ht => h.1 t (List.mem_append_right a ht), (List.pairwise_append.mp h.2).2.1⟩

theorem stop_le (h : InOrder (a ++ b)) (ht : t ∈ a) (hu : u ∈ b) : t.span.stop ≤ u.span.start :=
  (List.pairwise_append.mp h.2).2.2 t ht u hu

theorem stop_le_of_start_lt (h : InOrder ts) (ht : t ∈ ts) (hu : u ∈ ts)
    (hlt : t.span.start < u.span.start) : t.span.stop ≤ u.span.start := by
  have hsymm : Std.Symm fun t u : Token =>
      t.span.stop ≤ u.span.start ∨ u.span.stop ≤ t.span.start := ⟨fun _ _ => Or.symm⟩
  have hpairwise : ts.Pairwise fun t u =>
      t.span.stop ≤ u.span.start ∨ u.span.stop ≤ t.span.start := h.2.imp Or.inl
  have hne : t ≠ u := by
    rintro rfl
    omega
  have hstop := h.1 u hu
  have happart := hpairwise.forall ht hu hne
  omega

theorem start_lt_stop (h : InOrder ts) (ht : t ∈ ts) : t.span.start < t.span.stop := h.1 t ht

end InOrder

/-- A token comes from a lexeme, and the tokens around it from the lexemes around that. -/
theorem exists_lexeme_of_place {pos : Nat} {ls : List Lexeme} {front back : List Token} {t : Token}
    (h : place pos ls = front ++ t :: back) :
    ∃ a l b, ls = a ++ l :: b ∧ place pos a = front ∧ l.kind = some t.kind ∧
      t.span = ⟨pos + byteLength (spell a), pos + byteLength (spell a) + byteLength l.text⟩ ∧
      place t.span.stop b = back := by
  induction ls generalizing pos front with
  | nil => exact absurd h.symm (by simp [place])
  | cons l ls ih =>
      simp only [place] at h
      cases hkind : l.kind with
      | none =>
          simp only [hkind] at h
          obtain ⟨a, m, b, rfl, rfl, hm, hspan, hback⟩ := ih h
          refine ⟨l :: a, m, b, rfl, ?_, hm, ?_, hback⟩
          · simp only [place, hkind]
          · simp only [spell_cons, byteLength_append, hspan, Nat.add_assoc]
      | some kind =>
          simp only [hkind] at h
          cases front with
          | nil =>
              obtain ⟨rfl, rfl⟩ := List.cons.inj h
              exact ⟨[], l, ls, rfl, rfl, hkind, rfl, rfl⟩
          | cons u front =>
              obtain ⟨rfl, hrest⟩ := List.cons.inj h
              obtain ⟨a, m, b, rfl, rfl, hm, hspan, hback⟩ := ih hrest
              refine ⟨l :: a, m, b, rfl, ?_, hm, ?_, hback⟩
              · simp only [place, hkind]
              · simp only [spell_cons, byteLength_append, hspan, Nat.add_assoc]

/-- Tokens one behind the other come from lexemes one behind the other, which start with the
first token and end with the last one. -/
theorem exists_stretch {pos : Nat} {ls : List Lexeme} {front ts back : List Token} {s : Span}
    (h : place pos ls = front ++ (ts ++ back)) (hts : TakesUp s ts) :
    ∃ a l c b, ls = a ++ (l :: c ++ b) ∧ pos + byteLength (spell a) = s.start ∧
      s.start + byteLength (spell (l :: c)) = s.stop ∧ place pos a = front ∧
      place s.start (l :: c) = ts ∧ place s.stop b = back ∧
      ts.head?.map Token.kind = l.kind := by
  obtain ⟨t, z, ht, hz, rfl⟩ := hts
  obtain ⟨more, rfl⟩ := List.head?_eq_some_iff.mp ht
  obtain ⟨a, l, rest, rfl, hfront, hl, hspan, hrest⟩ := exists_lexeme_of_place h
  have hstart : pos + byteLength (spell a) = t.span.start := by rw [hspan]
  have hstop : t.span.start + byteLength l.text = t.span.stop := by rw [hspan]
  have hplace : ∀ c : List Lexeme,
      place t.span.start (l :: c) = t :: place t.span.stop c := by
    intro c
    simp only [place, hl, hstop]
  rcases List.eq_nil_or_concat more with rfl | ⟨more, z', rfl⟩
  · cases hz
    refine ⟨a, l, [], rest, by simp, hstart, by simpa [spell] using hstop, hfront,
      hplace [], hrest, hl.symm⟩
  · rw [List.concat_eq_append] at hz hrest
    rw [← List.cons_append, List.getLast?_concat] at hz
    cases hz
    have hrest : place t.span.stop rest = more ++ z :: back := by simpa using hrest
    obtain ⟨c, m, b, rfl, hmore, hm, hspan', hb⟩ := exists_lexeme_of_place hrest
    refine ⟨a, l, c ++ [m], b, by simp, hstart, ?_, hfront, ?_, hb, hl.symm⟩
    · simp only [hspan', spell_cons, spell_append, spell_nil, byteLength_append, List.append_nil]
      omega
    · have hlast : place (t.span.stop + byteLength (spell c)) [m] = [z] := by
        simp only [place, hm, ← hspan']
      rw [hplace, place_append, hmore, hlast, List.concat_eq_append]

theorem TakesUp.encloses {code : String} {front ts back : List Token} {s : Span}
    (htokens : tokenize code = front ++ (ts ++ back)) (hts : TakesUp s ts) :
    ∀ t ∈ ts, s.start ≤ t.span.start ∧ t.span.stop ≤ s.stop := by
  obtain ⟨a, l, c, b, hls, -, hstop, -, rfl, -⟩ := exists_stretch htokens hts
  intro t ht
  have hbounds := bounds_of_mem_place (fun m hm => wellSpelled_lexemes none code.toList m (by
    rw [hls]
    exact List.mem_append_right _ (List.mem_append_left _ hm))) ht
  rw [hstop] at hbounds
  exact ⟨hbounds.1, hbounds.2.2⟩

/-- Of tokens in their order, those in front of an offset are the first ones. -/
theorem takeWhile_start_lt {a b : List Token} {n : Nat} (ha : ∀ t ∈ a, t.span.start < n)
    (hb : ∀ t ∈ b.head?, n ≤ t.span.start) :
    (a ++ b).takeWhile (·.span.start < n) = a ∧ (a ++ b).dropWhile (·.span.start < n) = b := by
  have ha : ∀ t ∈ a, decide (t.span.start < n) = true := fun t ht => decide_eq_true (ha t ht)
  exact takeWhile_run ha fun t ht => decide_eq_false (Nat.not_lt.mpr (hb t ht))

theorem Lexer.Reads.of_ident {prior : Option TokenKind} {c : Char} {cs : List Char}
    {s : Scan (Option TokenKind)} (h : Reads prior c cs s) {name : String}
    (hs : s.value = some (.ident name)) : s.text = name.toList ∧ IsName name.toList := by
  cases h with
  | @name c run rest hdigit hname =>
      cases hs
      rw [String.toList_ofList]
      exact ⟨rfl, c, run, rfl, hdigit, hname⟩
  | space | line | block | regex | slash | quoted | template | number | sign => cases hs

/-- A name is spelled as it is. -/
theorem text_of_mem_lexemes {prior : Option TokenKind} {cs : List Char} {l : Lexeme}
    (h : l ∈ lexemes prior cs) {name : String} (hkind : l.kind = some (.ident name)) :
    l.text = name.toList ∧ IsName name.toList := by
  obtain ⟨_, _, _, _, hread, rfl⟩ := exists_reads_of_mem_lexemes h
  exact hread.of_ident hkind

end StyleBundler.Script
