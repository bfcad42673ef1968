import StyleBundler.Proofs.Pack.Seams

/-!
Statements taken out of a text. What is left is read as before where no slash comes to stand behind
another token than it did (`Seamless`): the lexemes of the shorter text are those that were around
the statements (`Cut.chain`), so its tokens are of the kinds of those that are left (`Cut.kinds`).
-/

namespace StyleBundler.Script

open Text Lexer

/-- One of the spans holds the token. -/
def covered (ss : List Span) (t : Token) : Bool :=
  ss.any fun s => s.start ≤ t.span.start && t.span.stop ≤ s.stop

/-- The tokens that no span holds. -/
def uncovered (ss : List Span) (ts : List Token) : List Token := ts.filter fun t => !covered ss t

/-- What stands between the two tokens can go away: the first is no slash, and if the second is a
slash or a regular expression, it is behind the first as well. -/
def Meets (a b : Option TokenKind) : Prop :=
  a ≠ some (.punct '/') ∧ (b = some .regex → TokenKind.opensRegex a = true) ∧
    (b = some (.punct '/') → TokenKind.opensRegex a = false)

instance (a b : Option TokenKind) : Decidable (Meets a b) := inferInstanceAs (Decidable (_ ∧ _ ∧ _))

/-- What is left in front of a token that goes away meets what is left behind it. -/
def Seamless (ss : List Span) (ts : List Token) : Prop :=
  ∀ i ∈ List.range ts.length, ts[i]?.any (covered ss) = true →
    Meets ((uncovered ss (ts.take i)).getLast?.map Token.kind)
      ((uncovered ss (ts.drop i)).head?.map Token.kind)

instance (ss : List Span) (ts : List Token) : Decidable (Seamless ss ts) :=
  inferInstanceAs (Decidable (∀ i ∈ List.range ts.length, _ → _))

/-- Behind `prior'` a text that starts with the token `next` is read as behind `prior`: a slash
opens a regular expression behind both or behind neither, or `next` stands behind `prior'`. -/
def Follows (prior prior' next : Option TokenKind) : Prop :=
  TokenKind.opensRegex prior' = TokenKind.opensRegex prior ∨
    (next = some .regex → TokenKind.opensRegex prior' = true) ∧
      (next = some (.punct '/') → TokenKind.opensRegex prior' = false)

theorem Follows.of_append {prior prior' : Option TokenKind} {a b : List Lexeme}
    (h : Follows prior prior' (firstKind? (a ++ b))) : Follows prior prior' (firstKind? a) := by
  refine h.imp id fun ⟨hregex, hslash⟩ => ⟨fun hkind => hregex ?_, fun hkind => hslash ?_⟩
  · rw [firstKind?_append, hkind]
    rfl
  · rw [firstKind?_append, hkind]
    rfl

/-- A chain stands behind another token if its first token does, and in front of another text if its
last lexeme does. -/
theorem Chain.of_follows {prior prior' : Option TokenKind} {ls : List Lexeme} {ds ds' : List Char}
    (h : Chain prior ls ds) (hprior : Follows prior prior' (firstKind? ls))
    (hlast : ∀ prior l, ls.getLast? = some l → Stands prior l ds → Stands prior l ds') :
    Chain prior' ls ds' := by
  obtain heq | ⟨hregex, hslash⟩ := hprior
  · exact h.of_synced (.inl heq) hlast
  suffices hmoved : Chain prior' ls ds from hmoved.of_synced (.inl rfl) hlast
  clear hlast
  induction ls generalizing prior with
  | nil => trivial
  | cons l ls ih =>
      rw [firstKind?_cons] at hregex hslash
      have hl : Stands prior' l (spell ls ++ ds) :=
        h.1.of_opens (fun hkind => hregex (by rw [hkind]; rfl))
          fun hkind => hslash (by rw [hkind]; rfl)
      refine ⟨hl, ?_⟩
      cases hkind : l.kind with
      | none =>
          have hls := h.2
          rw [hkind] at hregex hslash hls
          exact ih hls hregex hslash
      | some kind =>
          have hls := h.2
          rw [hkind] at hls
          exact hls

/-- From `pos` on, lexemes of which the spans take their own, and what is left. Each span starts
with a letter. -/
inductive Cut : Nat → List Lexeme → List Span → List Lexeme → Prop
  | rest (pos : Nat) (ls : List Lexeme) : Cut pos ls [] ls
  | cut {pos : Nat} {kept taken ls ls' : List Lexeme} {s : Span} {ss : List Span}
      (start : pos + byteLength (spell kept) = s.start)
      (stop : s.start + byteLength (spell taken) = s.stop)
      (word : ∃ c cs, spell taken = c :: cs ∧ c.isAlpha = true)
      (token : place s.start taken ≠ [])
      (behind : Cut s.stop ls ss ls') : Cut pos (kept ++ (taken ++ ls)) (s :: ss) (kept ++ ls')

theorem covered_eq_false {ss : List Span} {t : Token} {n m : Nat} (hstart : n ≤ t.span.start)
    (hlt : t.span.start < t.span.stop) (hstop : t.span.stop ≤ m)
    (h : ∀ s ∈ ss, s.stop ≤ n ∨ m ≤ s.start) : covered ss t = false := by
  rw [covered, List.any_eq_false]
  intro s hs hcovers
  simp only [Bool.and_eq_true, decide_eq_true_eq] at hcovers
  have := h s hs
  omega

/-- Between the spans no token goes away. -/
theorem uncovered_place {ss : List Span} {pos : Nat} {ls : List Lexeme} (hls : WellSpelled ls)
    (h : ∀ s ∈ ss, s.stop ≤ pos ∨ pos + byteLength (spell ls) ≤ s.start) :
    uncovered ss (place pos ls) = place pos ls := by
  rw [uncovered, List.filter_eq_self]
  intro t ht
  obtain ⟨hstart, hlt, hstop⟩ := bounds_of_mem_place hls ht
  rw [covered_eq_false hstart hlt hstop h]
  rfl

theorem covered_of_mem_place {ss : List Span} {s : Span} (hs : s ∈ ss) {ls : List Lexeme}
    (hls : WellSpelled ls) (hstop : s.start + byteLength (spell ls) = s.stop) {t : Token}
    (ht : t ∈ place s.start ls) : covered ss t = true := by
  obtain ⟨hstart, hlt, hend⟩ := bounds_of_mem_place hls ht
  refine List.any_eq_true.mpr ⟨s, hs, ?_⟩
  simp only [Bool.and_eq_true, decide_eq_true_eq]
  omega

theorem uncovered_eq_nil {ss : List Span} {ts : List Token}
    (h : ∀ t ∈ ts, covered ss t = true) : uncovered ss ts = [] := by
  rw [uncovered, List.filter_eq_nil_iff]
  intro t ht
  rw [h t ht]
  decide

@[simp] theorem uncovered_append (ss : List Span) (a b : List Token) :
    uncovered ss (a ++ b) = uncovered ss a ++ uncovered ss b := List.filter_append a b

/-- What is left around the tokens of a span meets. -/
theorem Seamless.meets {ss : List Span} {front taken back : List Token}
    (h : Seamless ss (front ++ (taken ++ back))) (hne : taken ≠ [])
    (htaken : ∀ t ∈ taken, covered ss t = true) :
    Meets ((uncovered ss front).getLast?.map Token.kind)
      ((uncovered ss back).head?.map Token.kind) := by
  obtain ⟨t, taken, rfl⟩ := List.exists_cons_of_ne_nil hne
  have hmeets := h front.length (List.mem_range.mpr (by simp)) (by
    rw [List.getElem?_append_right (Nat.le_refl _), Nat.sub_self]
    exact htaken t List.mem_cons_self)
  rwa [List.take_left, List.drop_left, uncovered_append, uncovered_eq_nil htaken,
    List.nil_append] at hmeets

namespace Cut

variable {pos : Nat} {ls ls' : List Lexeme} {ss all : List Span}

theorem le_start (h : Cut pos ls ss ls') : ∀ s ∈ ss, pos ≤ s.start := by
  induction h with
  | rest => exact nofun
  | cut start stop _ _ _ ih =>
      intro r hr
      rcases List.mem_cons.mp hr with rfl | hr
      · omega
      · have := ih r hr
        omega

/-- The edits that remove the spans leave the text of what is left. -/
theorem patched_eq (h : Cut pos ls ss ls') :
    Edits.patched pos (spell ls) (ss.map fun s => ⟨s, ""⟩) = spell ls' := by
  induction h with
  | rest => exact Edits.patched_nil _ _
  | @cut pos kept taken ls ls' s ss start stop _ _ _ ih =>
      have hpatched := @Edits.patched_cons pos (spell kept) (spell taken) (spell ls) ⟨s, ""⟩
        (ss.map fun s => ⟨s, ""⟩) start stop
      rw [spell_append, spell_append, spell_append, List.map_cons, hpatched, ih]
      rfl

/-- The spans that have not been reached, among all of them. -/
structure Ahead (all : List Span) (pos : Nat) (ss : List Span) : Prop where
  subset : ∀ s ∈ ss, s ∈ all
  reached : ∀ s ∈ all, s.stop ≤ pos ∨ s ∈ ss

/-- Up to the first span all tokens are left, and of its own none. -/
theorem uncovered_cut {kept taken : List Lexeme} {s : Span}
    (hall : Ahead all pos (s :: ss)) (hls : WellSpelled (kept ++ (taken ++ ls)))
    (start : pos + byteLength (spell kept) = s.start)
    (stop : s.start + byteLength (spell taken) = s.stop) (hbehind : ∀ r ∈ ss, s.stop ≤ r.start) :
    uncovered all (place pos kept) = place pos kept ∧
      (∀ t ∈ place s.start taken, covered all t = true) ∧ Ahead all s.stop ss := by
  refine ⟨uncovered_place (fun l hl => hls l (by simp [hl])) fun r hr => ?_,
    fun t ht => covered_of_mem_place (hall.subset s List.mem_cons_self)
      (fun l hl => hls l (by simp [hl])) stop ht,
    fun r hr => hall.subset r (List.mem_cons_of_mem s hr), fun r hr => ?_⟩
  · rcases hall.reached r hr with hle | hmem
    · exact .inl hle
    · rcases List.mem_cons.mp hmem with rfl | hmem
      · exact .inr (by omega)
      · have := hbehind r hmem
        exact .inr (by omega)
  · rcases hall.reached r hr with hle | hmem
    · exact .inl (by omega)
    · rcases List.mem_cons.mp hmem with rfl | hmem
      · exact .inl (Nat.le_refl _)
      · exact .inr hmem

/-- The tokens that are left are those of what is left. -/
theorem kinds (h : Cut pos ls ss ls') (hls : WellSpelled ls) (hall : Ahead all pos ss) :
    (uncovered all (place pos ls)).map Token.kind = ls'.filterMap Lexeme.kind := by
  induction h with
  | rest pos ls =>
      rw [uncovered_place hls, map_kind_place]
      exact fun s hs => .inl ((hall.reached s hs).resolve_right nofun)
  | @cut pos kept taken ls ls' s ss start stop _ _ behind ih =>
      obtain ⟨hkept, htaken, hahead⟩ := uncovered_cut hall hls start stop behind.le_start
      have hrest := ih (fun l hl => hls l (by simp [hl])) hahead
      rw [place_append, start, place_append, stop, uncovered_append, uncovered_append, hkept,
        uncovered_eq_nil htaken, List.nil_append, List.map_append, hrest, map_kind_place,
        List.filterMap_append]

theorem lastKind_uncovered (front : List Token) {kept : List Lexeme}
    (h : uncovered all (place pos kept) = place pos kept) :
    lastKind ((uncovered all front).getLast?.map Token.kind) kept =
      (uncovered all (front ++ place pos kept)).getLast?.map Token.kind := by
  rw [uncovered_append, h, List.getLast?_append, lastKind_eq _ pos]
  cases (place pos kept).getLast? <;> rfl

/-- What is left is read as it was. -/
theorem chain (h : Cut pos ls ss ls') (hls : WellSpelled ls) (hall : Ahead all pos ss)
    {prior : Option TokenKind} {front : List Token}
    (hseam : Seamless all (front ++ place pos ls)) (hchain : Chain prior ls [])
    (hprior : Follows prior ((uncovered all front).getLast?.map Token.kind) (firstKind? ls')) :
    Chain ((uncovered all front).getLast?.map Token.kind) ls' [] := by
  induction h generalizing prior front with
  | rest => exact hchain.of_follows hprior fun _ _ _ h => h
  | @cut pos kept taken ls ls' s ss start stop word token behind ih =>
      obtain ⟨hkept, htaken, hahead⟩ := uncovered_cut hall hls start stop behind.le_start
      have hbehind : WellSpelled ls := fun l hl => hls l (by simp [hl])
      obtain ⟨hkeptChain, hrest⟩ := hchain.of_append
      obtain ⟨-, hchain⟩ := hrest.of_append
      rw [place_append, start, place_append, stop, ← List.append_assoc] at hseam
      have hmeets := hseam.meets token htaken
      have hfirst : (uncovered all (place s.stop ls)).head?.map Token.kind = firstKind? ls' := by
        rw [← List.head?_map, behind.kinds hbehind hahead, firstKind?, List.head?_filterMap]
      have hlast := lastKind_uncovered front hkept
      rw [hfirst, ← hlast] at hmeets
      obtain ⟨c, cs, hspell, hc⟩ := word
      refine Chain.append (hkeptChain.of_follows hprior.of_append fun prior l hl hstands => ?_) ?_
      · rw [spell_append, hspell] at hstands
        refine hstands.of_letter hc fun hkind => absurd ?_ hmeets.1
        obtain ⟨init, rfl⟩ := List.getLast?_eq_some_iff.mp hl
        rw [lastKind_append, lastKind_cons, hkind]
        rfl
      · have hfront : lastKind ((uncovered all front).getLast?.map Token.kind) kept =
            (uncovered all (front ++ place pos kept ++ place s.start taken)).getLast?.map
              Token.kind := by
          rw [uncovered_append all (front ++ place pos kept), uncovered_eq_nil htaken,
            List.append_nil, hlast]
        rw [hfront] at hmeets ⊢
        exact ih hbehind hahead (by simpa using hseam) hchain (.inr hmeets.2)

end Cut

/-- Spans of tokens, each from a word on and the one behind the other, can be cut out. -/
theorem exists_cut {code : String} {front ls : List Lexeme} {ss : List Span}
    (htext : lexemes none code.toList = front ++ ls)
    (hss : ∀ s ∈ ss, ∃ before ts back, tokenize code = before ++ (ts ++ back) ∧ TakesUp s ts ∧
      ts.head?.map Token.kind = some (.ident "import"))
    (hapart : ss.Pairwise fun s r => s.stop ≤ r.start)
    (hahead : ∀ s ∈ ss, byteLength (spell front) ≤ s.start) :
    ∃ ls', Cut (byteLength (spell front)) ls ss ls' := by
  induction ss generalizing front ls with
  | nil => exact ⟨ls, .rest _ ls⟩
  | cons s ss ih =>
      obtain ⟨before, ts, back, htokens, htakes, hword⟩ := hss s List.mem_cons_self
      obtain ⟨hbehind, hapart⟩ := List.pairwise_cons.mp hapart
      rw [tokenize] at htokens
      obtain ⟨a, l, c, b, hls, hstart, hstop, rfl, rfl, rfl, hfirst⟩ :=
        exists_stretch htokens htakes
      rw [Nat.zero_add] at hstart
      rw [htext] at hls
      obtain ⟨kept, rfl, rfl⟩ := exists_kept hls
        (fun l hl => text_ne_nil_of_mem_lexemes (htext ▸ hl))
        (by have := hahead s List.mem_cons_self; omega)
      rw [spell_append, byteLength_append] at hstart
      have hlength : byteLength (spell (front ++ kept ++ l :: c)) = s.stop := by
        rw [spell_append, spell_append, byteLength_append, byteLength_append]
        omega
      have htext' : lexemes none code.toList = (front ++ kept ++ l :: c) ++ b := by
        rw [htext]
        simp
      obtain ⟨ls', hcut⟩ := ih htext' (fun r hr => hss r (List.mem_cons_of_mem s hr)) hapart
        fun r hr => by rw [hlength]; exact hbehind r hr
      rw [hlength] at hcut
      refine ⟨kept ++ ls', .cut hstart hstop ?_ ?_ hcut⟩
      · have hmem : l ∈ lexemes none code.toList := by simp [htext]
        rw [spell_cons, (text_of_mem_lexemes hmem (hfirst.symm.trans hword)).1]
        exact ⟨_, _, rfl, rfl⟩
      · intro hnil
        rw [hnil] at hword
        cases hword

end StyleBundler.Script
