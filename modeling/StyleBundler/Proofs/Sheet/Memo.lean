import Mathlib.Data.List.Forall2
import Mathlib.Data.List.TakeWhile
import StyleBundler.Sheet.Extraction

/-!
Look-ups with a memory. What a memory holds is what a search through the rules finds, one object for
each stylesheet and name (`Memo.Sound`), and a look-up keeps it so. A sequence of look-ups therefore
answers as if each of them searched the rules on its own, and tells objects apart by the names they
were asked for with (`Memo.lookupEach_stateless`).
-/

namespace StyleBundler.Sheet

open Text

/-- A prelude that names a sheet: `@supports`, white space, and in `sheet(…)` the name, which is not
empty and on one line. -/
def NamesSheet (prelude name : List Char) : Prop :=
  ∃ blanks, blanks ≠ [] ∧ (∀ c ∈ blanks, isBlank c = true) ∧ name ≠ [] ∧ '\n' ∉ name ∧
    prelude = "@supports".toList ++ (blanks ++ ("sheet(".toList ++ (name ++ [')'])))

theorem skipBlanks?_eq_some {cs rest : List Char} (h : skipBlanks? cs = some rest) :
    ∃ blanks, blanks ≠ [] ∧ (∀ c ∈ blanks, isBlank c = true) ∧ cs = blanks ++ rest := by
  cases cs with
  | nil => cases h
  | cons c cs =>
      simp only [skipBlanks?] at h
      split at h
      · next hc =>
          refine ⟨(c :: cs).takeWhile isBlank, by simp [hc], fun d hd => List.mem_takeWhile_imp hd, ?_⟩
          rw [← Option.some.inj h, List.takeWhile_append_dropWhile]
      · cases h

theorem skipBlanks?_append {blanks cs : List Char} (hne : blanks ≠ [])
    (hblanks : ∀ c ∈ blanks, isBlank c = true) (hcs : ∀ c ∈ cs.head?, isBlank c = false) :
    skipBlanks? (blanks ++ cs) = some cs := by
  obtain ⟨c, blanks, rfl⟩ := List.exists_cons_of_ne_nil hne
  have hdrop : cs.dropWhile isBlank = cs := by
    cases cs with
    | nil => rfl
    | cons d cs => simp [List.dropWhile, hcs d (by simp)]
  rw [List.cons_append, skipBlanks?, if_pos (hblanks c List.mem_cons_self), ← List.cons_append,
    List.dropWhile_append_of_pos hblanks, hdrop]

theorem conditionName?_eq_some_iff {prelude name : List Char} :
    conditionName? prelude = some name ↔ NamesSheet prelude name := by
  simp only [conditionName?, Option.bind_eq_bind, Option.bind_eq_some_iff]
  constructor
  · rintro ⟨behind, hstart, inner, hblank, named, hopen, hname⟩
    rw [after?_eq_some_iff] at hstart hopen
    obtain ⟨blanks, hne, hblanks, rfl⟩ := skipBlanks?_eq_some hblank
    split at hname
    · next hclosed =>
        simp only [Bool.and_eq_true, beq_iff_eq, Bool.not_eq_true', List.isEmpty_eq_false_iff,
          List.contains_eq_mem, decide_eq_false_iff_not] at hclosed
        obtain ⟨⟨hlast, hempty⟩, hline⟩ := hclosed
        have hnamed : named = named.dropLast ++ [')'] :=
          (List.dropLast_append_getLast? ')' hlast).symm
        cases hname
        exact ⟨blanks, hne, hblanks, hempty, hline, by rw [hstart, hopen, ← hnamed]⟩
    · cases hname
  · rintro ⟨blanks, hne, hblanks, hempty, hline, rfl⟩
    refine ⟨_, after?_eq_some_iff.mpr rfl, _, skipBlanks?_append hne hblanks ?_, _,
      after?_eq_some_iff.mpr rfl, ?_⟩
    · intro c hc
      cases hc
      rfl
    · simp [hempty, hline]

/-- What a search through rules without a memory finds under a name: the rules in the block of the
first rule that names the sheet and has a block. -/
def IsExtraction (rules : List Rule) (name : String) : Option (List Rule) → Prop
  | some found => ∃ front r back block, rules = front ++ r :: back ∧
      NamesSheet r.prelude.toList name.toList ∧ r.block = some block ∧
      (∀ q ∈ front, NamesSheet q.prelude.toList name.toList → q.block = none) ∧ found = parse block
  | none => ∀ q ∈ rules, NamesSheet q.prelude.toList name.toList → q.block = none

theorem blockNamed?_eq_some_iff {name block : String} {r : Rule} :
    blockNamed? name r = some block ↔
      NamesSheet r.prelude.toList name.toList ∧ r.block = some block := by
  rw [blockNamed?, ← conditionName?_eq_some_iff]
  simp only [beq_iff_eq]
  split
  · next h => simp [h]
  · next h => simp [h]

theorem blockNamed?_eq_none_iff {name : String} {r : Rule} :
    blockNamed? name r = none ↔ (NamesSheet r.prelude.toList name.toList → r.block = none) := by
  simp only [Option.eq_none_iff_forall_ne_some, ne_eq, blockNamed?_eq_some_iff, not_and]
  exact forall_comm

theorem isExtraction_extract? (rules : List Rule) (name : String) :
    IsExtraction rules name (extract? rules name) := by
  rw [extract?]
  cases hfound : rules.findSome? (blockNamed? name) with
  | none =>
      intro q hq
      exact blockNamed?_eq_none_iff.mp (List.findSome?_eq_none_iff.mp hfound q hq)
  | some block =>
      obtain ⟨front, r, back, hrules, hblock, hfront⟩ := List.findSome?_eq_some_iff.mp hfound
      obtain ⟨hnames, hblock⟩ := blockNamed?_eq_some_iff.mp hblock
      exact ⟨front, r, back, block, hrules, hnames, hblock,
        fun q hq => blockNamed?_eq_none_iff.mp (hfront q hq), rfl⟩

/-- A combined stylesheet, and the name of a sheet that is looked up in it. -/
abbrev Request := Combined × String

/-- Stylesheets of one name have the same rules. -/
def Consistent (qs : List Request) : Prop :=
  ∀ q ∈ qs, ∀ q' ∈ qs, q.1.name = q'.1.name → q.1.rules = q'.1.rules

instance (qs : List Request) : Decidable (Consistent qs) :=
  inferInstanceAs (Decidable (∀ q ∈ qs, ∀ q' ∈ qs, _ → _))

/-- The rules that the first stylesheet of a name has. -/
def rulesOf (qs : List Request) (name : String) : List Rule :=
  ((qs.find? (·.1.name == name)).map (·.1.rules)).getD []

theorem Consistent.rulesOf_eq {qs : List Request} (h : Consistent qs) {q : Request} (hq : q ∈ qs) :
    rulesOf qs q.1.name = q.1.rules := by
  rw [rulesOf]
  cases hfind : qs.find? (·.1.name == q.1.name) with
  | none => exact absurd (beq_self_eq_true q.1.name) (List.find?_eq_none.mp hfind q hq)
  | some first =>
      have hname : first.1.name = q.1.name := by simpa using List.find?_some hfind
      exact h first (List.mem_of_find?_eq_some hfind) q hq hname

namespace Memo

variable {memo : Memo} {rules : String → List Rule} {combined : Combined} {name : String}

/-- Looks sheets up in turn. -/
def lookupEach (memo : Memo) : List Request → List (Option (Nat × List Rule))
  | [] => []
  | q :: qs => (memo.lookup q.1 q.2).1 :: lookupEach (memo.lookup q.1 q.2).2 qs

/-- What a memory holds after these look-ups. -/
def after (memo : Memo) (qs : List Request) : Memo :=
  qs.foldl (fun memo q => (memo.lookup q.1 q.2).2) memo

/-- A memory holds what the rules of the stylesheets give, each sheet once. -/
structure Sound (rules : String → List Rule) (memo : Memo) : Prop where
  extracted : ∀ e ∈ memo.entries, extract? (rules e.combined) e.name = some e.rules
  distinct : memo.entries.Pairwise fun e e' => ¬(e.combined = e'.combined ∧ e.name = e'.name)

/-- The object of an answer is the one for these names. -/
def Holds (memo : Memo) (combined name : String) (answer : Option (Nat × List Rule)) : Prop :=
  ∀ object found, answer = some (object, found) →
    memo.entries[object]? = some ⟨combined, name, found⟩

theorem Holds.mono {memo' : Memo} {combined : String} {answer : Option (Nat × List Rule)}
    (h : memo.Holds combined name answer) (hgrown : memo.entries <+: memo'.entries) :
    memo'.Holds combined name answer := by
  intro object found hanswer
  obtain ⟨more, hmore⟩ := hgrown
  rw [← hmore]
  exact List.getElem?_append_left (List.getElem?_eq_some_iff.mp (h object found hanswer)).1 ▸
    h object found hanswer

/-- A sheet is remembered, or it is searched for and remembered if it is found. -/
theorem lookup_cases (memo : Memo) (combined : Combined) (name : String) :
    (∃ object found, memo.entries[object]? = some ⟨combined.name, name, found⟩ ∧
      memo.lookup combined name = (some (object, found), memo)) ∨
    (∀ e ∈ memo.entries, ¬(e.combined = combined.name ∧ e.name = name)) ∧
      ((∃ found, extract? combined.rules name = some found ∧ memo.lookup combined name =
        (some (memo.entries.length, found), ⟨memo.entries ++ [⟨combined.name, name, found⟩]⟩)) ∨
      extract? combined.rules name = none ∧ memo.lookup combined name = (none, memo)) := by
  have hanswers : ∀ e : Extracted, Answers combined.name name e = true ↔
      e.combined = combined.name ∧ e.name = name := by
    intro e
    simp [Answers]
  unfold lookup
  cases hfind : memo.entries.findIdx? (Answers combined.name name) with
  | some object =>
      obtain ⟨hlt, hanswer, -⟩ := List.findIdx?_eq_some_iff_getElem.mp hfind
      obtain ⟨hcombined, hname⟩ := (hanswers _).mp hanswer
      refine .inl ⟨object, memo.entries[object].rules, ?_, ?_⟩
      · rw [List.getElem?_eq_getElem hlt, ← hcombined, ← hname]
      · simp [List.getElem?_eq_getElem hlt]
  | none =>
      refine .inr ⟨fun e he h => ?_, ?_⟩
      · have hnone := List.findIdx?_eq_none_iff.mp hfind e he
        rw [(hanswers e).mpr h] at hnone
        cases hnone
      · cases hextract : extract? combined.rules name with
        | none => exact .inr ⟨rfl, rfl⟩
        | some found => exact .inl ⟨found, rfl, rfl⟩

/-- One look-up in a sound memory answers as a search does, and leaves the memory sound. What was
remembered stays where it is. -/
theorem Sound.lookup (h : Sound rules memo) (hrules : rules combined.name = combined.rules)
    (name : String) :
    Sound rules (memo.lookup combined name).2 ∧
      memo.entries <+: (memo.lookup combined name).2.entries ∧
      (memo.lookup combined name).1.map Prod.snd = extract? combined.rules name ∧
      (memo.lookup combined name).2.Holds combined.name name (memo.lookup combined name).1 := by
  obtain ⟨object, found, hentry, heq⟩ | ⟨hfresh, ⟨found, hextract, heq⟩ | ⟨hextract, heq⟩⟩ :=
    lookup_cases memo combined name
  · rw [heq]
    refine ⟨h, List.prefix_rfl, ?_, fun _ _ hanswer => by cases hanswer; exact hentry⟩
    rw [← hrules]
    exact (h.extracted _ (List.mem_of_getElem? hentry)).symm
  · rw [heq]
    refine ⟨⟨?_, ?_⟩, List.prefix_append _ _, hextract.symm, fun _ _ hanswer => ?_⟩
    · intro e he
      obtain he | he := List.mem_append.mp he
      · exact h.extracted e he
      · rw [List.mem_singleton.mp he, hrules]
        exact hextract
    · refine List.pairwise_append.mpr ⟨h.distinct, List.pairwise_singleton _ _, ?_⟩
      intro e he e' he'
      rw [List.mem_singleton.mp he']
      exact hfresh e he
    · cases hanswer
      exact List.getElem?_concat_length
  · rw [heq]
    exact ⟨h, List.prefix_rfl, hextract.symm, fun _ _ hanswer => by cases hanswer⟩

/-- A look-up that finds nothing leaves the memory as it was. -/
theorem lookup_of_missed (h : (memo.lookup combined name).1 = none) :
    (memo.lookup combined name).2 = memo := by
  obtain ⟨object, found, -, heq⟩ | ⟨-, ⟨found, -, heq⟩ | ⟨-, heq⟩⟩ := lookup_cases memo combined name
  · rw [heq]
  · rw [heq] at h
    cases h
  · rw [heq]

theorem Sound.prefix_after (h : Sound rules memo) {qs : List Request}
    (hrules : ∀ q ∈ qs, rules q.1.name = q.1.rules) : memo.entries <+: (memo.after qs).entries := by
  induction qs generalizing memo with
  | nil => exact List.prefix_rfl
  | cons q qs ih =>
      obtain ⟨hq, hqs⟩ := List.forall_mem_cons.mp hrules
      obtain ⟨hsound, hgrown, -⟩ := h.lookup hq q.2
      exact hgrown.trans (ih hsound hqs)

/-- All look-ups answer as searches do, with the objects that the memory holds in the end. -/
theorem Sound.lookupEach (h : Sound rules memo) {qs : List Request}
    (hrules : ∀ q ∈ qs, rules q.1.name = q.1.rules) :
    Sound rules (memo.after qs) ∧
      List.Forall₂ (fun q answer => answer.map Prod.snd = extract? q.1.rules q.2 ∧
        (memo.after qs).Holds q.1.name q.2 answer) qs (memo.lookupEach qs) := by
  induction qs generalizing memo with
  | nil => exact ⟨h, .nil⟩
  | cons q qs ih =>
      obtain ⟨hq, hqs⟩ := List.forall_mem_cons.mp hrules
      obtain ⟨hsound, -, hfound, hholds⟩ := h.lookup hq q.2
      obtain ⟨hafter, hanswers⟩ := ih hsound hqs
      exact ⟨hafter, .cons ⟨hfound, hholds.mono (hsound.prefix_after hqs)⟩ hanswers⟩

/-- Two answers have the same object exactly when they are for the same names. -/
theorem Sound.object_eq_iff (h : Sound rules memo) {combined combined' name' : String}
    {object object' : Nat} {found found' : List Rule}
    (hobject : memo.entries[object]? = some ⟨combined, name, found⟩)
    (hobject' : memo.entries[object']? = some ⟨combined', name', found'⟩) :
    object = object' ↔ combined = combined' ∧ name = name' := by
  obtain ⟨hlt, hentry⟩ := List.getElem?_eq_some_iff.mp hobject
  obtain ⟨hlt', hentry'⟩ := List.getElem?_eq_some_iff.mp hobject'
  constructor
  · rintro rfl
    rw [hobject] at hobject'
    cases hobject'
    exact ⟨rfl, rfl⟩
  · rintro ⟨rfl, rfl⟩
    have hapart := List.pairwise_iff_getElem.mp h.distinct
    rcases Nat.lt_trichotomy object object' with hless | heq | hgreater
    · exact absurd (by simp [hentry, hentry']) (hapart _ _ hlt hlt' hless)
    · exact heq
    · exact absurd (by simp [hentry, hentry']) (hapart _ _ hlt' hlt hgreater)

theorem sound_empty (rules : String → List Rule) : Sound rules empty :=
  ⟨fun _ he => absurd he List.not_mem_nil, List.Pairwise.nil⟩

theorem lookupEach_append (memo : Memo) (qs rs : List Request) :
    memo.lookupEach (qs ++ rs) = memo.lookupEach qs ++ (memo.after qs).lookupEach rs := by
  induction qs generalizing memo with
  | nil => rfl
  | cons q qs ih => exact congrArg _ (ih _)

theorem length_lookupEach (memo : Memo) (qs : List Request) :
    (memo.lookupEach qs).length = qs.length := by
  induction qs generalizing memo with
  | nil => rfl
  | cons q qs ih => exact congrArg _ (ih _)

/-- Without a look-up that finds nothing all others answer the same. -/
theorem lookupEach_eraseIdx (memo : Memo) {front back : List Request} {q : Request}
    (h : (memo.lookupEach (front ++ q :: back))[front.length]? = some none) :
    memo.lookupEach (front ++ back) =
      (memo.lookupEach (front ++ q :: back)).eraseIdx front.length := by
  rw [lookupEach_append, List.getElem?_append_right (length_lookupEach _ _).le,
    length_lookupEach, Nat.sub_self] at h
  have hmissed : ((memo.after front).lookup q.1 q.2).1 = none := by
    simpa [lookupEach] using h
  rw [lookupEach_append, lookupEach_append,
    List.eraseIdx_append_of_length_le (length_lookupEach _ _).le, length_lookupEach, Nat.sub_self,
    lookupEach, List.eraseIdx_cons_zero, lookup_of_missed hmissed]

/-- Look-ups with a memory against searches without one. Each answers what a search through the
rules finds; two that succeed give the same object exactly when they ask for the same sheet of the
same stylesheet; and one that fails could as well be left out. -/
theorem lookupEach_stateless (qs : List Request) (h : Consistent qs) :
    let answers := Memo.empty.lookupEach qs
    List.Forall₂ (fun q answer => IsExtraction q.1.rules q.2 (answer.map Prod.snd)) qs answers ∧
      (∀ x ∈ qs.zip answers, ∀ x' ∈ qs.zip answers, ∀ object found object' found',
        x.2 = some (object, found) → x'.2 = some (object', found') →
          (object = object' ↔ x.1.1.name = x'.1.1.name ∧ x.1.2 = x'.1.2)) ∧
      ∀ front q back, qs = front ++ q :: back → answers[front.length]? = some none →
        Memo.empty.lookupEach (front ++ back) = answers.eraseIdx front.length := by
  intro answers
  obtain ⟨hsound, hanswers⟩ := (sound_empty (rulesOf qs)).lookupEach fun q => h.rulesOf_eq
  refine ⟨hanswers.imp fun q answer hanswer => ?_, ?_, ?_⟩
  · rw [hanswer.1]
    exact isExtraction_extract? _ _
  · intro x hx x' hx' object found object' found' hfound hfound'
    have hholds := (List.forall₂_iff_zip.mp hanswers).2 hx
    have hholds' := (List.forall₂_iff_zip.mp hanswers).2 hx'
    exact hsound.object_eq_iff (hholds.2 object found hfound) (hholds'.2 object' found' hfound')
  · rintro front q back rfl hmissed
    exact lookupEach_eraseIdx _ hmissed

/-- A sheet asked for twice, with a name that is in no rule and another stylesheet in between. -/
theorem lookupEach_stateless_again :
    let a : Combined := ⟨"a.css", [⟨"@supports sheet(x)", none⟩,
      ⟨"@supports \n sheet(x)", some ".a\x7b\x7d"⟩, ⟨"@supports sheet(x)", some ".b\x7b\x7d"⟩]⟩
    let b : Combined := ⟨"b.css", [⟨"@supports sheet(x)", some ".a\x7b\x7d"⟩]⟩
    let qs : List Request := [(a, "x"), (a, "y"), (b, "x"), (a, "x")]
    Consistent qs ∧
      Memo.empty.lookupEach qs = [some (0, [⟨".a", some ""⟩]), none, some (1, [⟨".a", some ""⟩]),
        some (0, [⟨".a", some ""⟩])] ∧
      IsExtraction a.rules "x" (some [⟨".a", some ""⟩]) ∧ IsExtraction a.rules "y" none ∧
      Memo.empty.lookupEach [(a, "x"), (b, "x"), (a, "x")] =
        (Memo.empty.lookupEach qs).eraseIdx 1 := by
  intro a b qs
  have hconsistent : Consistent qs := by decide
  have hanswers : Memo.empty.lookupEach qs = [some (0, [⟨".a", some ""⟩]), none,
      some (1, [⟨".a", some ""⟩]), some (0, [⟨".a", some ""⟩])] := by
    decide +kernel
  obtain ⟨hsearch, -, hmissed⟩ := lookupEach_stateless qs hconsistent
  rw [hanswers] at hsearch
  obtain ⟨hfirst, hsecond, -⟩ : _ ∧ _ ∧ _ := by
    simpa only [qs, List.forall₂_cons, Option.map_some, Option.map_none] using hsearch
  refine ⟨hconsistent, hanswers, hfirst, hsecond, hmissed [(a, "x")] (a, "y") _ rfl ?_⟩
  rw [hanswers]
  rfl

end Memo
end StyleBundler.Sheet
