import StyleBundler.Proofs.Edit.Splice
import StyleBundler.Proofs.Script.Moving
import StyleBundler.Proofs.Script.Placing

/-!
Where packing takes something out of a unit. Declarations go away, so that what stood around
them comes together; the lexemes there are read as before if no slash changes its meaning
(`Plan.Seamless`), and the other imports are if none of them reaches for what a replaced part
leaves behind (`Plan.Standing`).
-/

namespace StyleBundler

open Script Text

/-- The token is one of those that packing replaces for the entry. -/
def PlannedImport.covers (e : PlannedImport) (t : Token) : Bool :=
  e.span.start ≤ t.span.start && t.span.stop ≤ e.span.stop

namespace Plan

def covers (p : Plan) (t : Token) : Bool := p.any (·.covers t)

/-- The declarations of a plan, which packing removes. -/
def removed (p : Plan) : Plan := p.filter PlannedImport.isDeclaration

/-- The tokens that are left when the declarations are gone. -/
def left (p : Plan) (ts : List Token) : List Token := ts.filter fun t => !p.removed.covers t

/-- Between the two tokens a part of the text can go away: the first is no slash, and a regular
expression that comes behind it is still one. -/
def Joins (a b : Option TokenKind) : Prop :=
  a ≠ some (.punct '/') ∧ (b = some .regex → TokenKind.opensRegex a = true)

instance (a b : Option TokenKind) : Decidable (Joins a b) := inferInstanceAs (Decidable (_ ∧ _))

/-- What is left in front of a declaration joins what is left behind it. -/
def Seamless (p : Plan) (ts : List Token) : Prop :=
  ∀ e ∈ p, e.isDeclaration = true →
    Joins ((p.left (ts.takeWhile (·.span.start < e.span.start))).getLast?.map Token.kind)
      ((p.left (ts.dropWhile (·.span.start < e.span.stop))).head?.map Token.kind)

instance (p : Plan) (ts : List Token) : Decidable (p.Seamless ts) :=
  inferInstanceAs (Decidable (∀ e ∈ p, _ → _))

/-- Whether the node that is read at a token imports an asset of the store. -/
def plansAt (store : AssetStore) (before : List Token) (t : Token) (ts : List Token) : Bool :=
  (importNodeAt? before t ts).any fun n => (importOf? store n).isSome

/-- Whatever follows `ts`, the node at `t` imports an asset or does not. -/
def Decided (store : AssetStore) (before : List Token) (t : Token) (ts : List Token) : Prop :=
  ∀ more, plansAt store before t (ts ++ more) = plansAt store before t ts

/-- The imports that are not in the plan are decided in front of the entries that follow. -/
def Standing (store : AssetStore) (p : Plan) (ts : List Token) : Prop :=
  ∀ front t back, ts = front ++ t :: back → t.isIdent "import" = true → p.covers t = false →
    ∀ e ∈ p, t.span.stop ≤ e.span.start →
      Decided store front.reverse t (back.takeWhile (·.span.start < e.span.start))

end Plan

/-- Lexemes that take the place of a call: whatever stands around them, they are read as they are,
end with a parenthesis and import nothing. -/
structure Settled (new : List Lexeme) : Prop where
  chain : ∀ prior ds, Chain prior new ds
  closed : ∀ prior, lastKind prior new = some (.punct ')')
  word : ∃ c cs, spell new = c :: cs ∧ c.isAlpha = true
  first : ∃ name, firstKind? new = some (.ident name)
  silent : ∀ l ∈ new, l.kind ≠ some (.ident "import")

namespace Plan

variable {p : Plan}

theorem covers_eq_false {t : Token} {n m : Nat} (hstart : n ≤ t.span.start)
    (hlt : t.span.start < t.span.stop) (hstop : t.span.stop ≤ m)
    (h : ∀ e ∈ p, e.span.stop ≤ n ∨ m ≤ e.span.start) : p.covers t = false := by
  rw [covers, List.any_eq_false]
  intro e he hcovers
  simp only [PlannedImport.covers, Bool.and_eq_true, decide_eq_true_eq] at hcovers
  have := h e he
  omega

@[simp] theorem left_append (a b : List Token) : p.left (a ++ b) = p.left a ++ p.left b :=
  List.filter_append a b

/-- No token is lost in front of, between and behind the declarations. -/
theorem left_place {pos : Nat} {ls : List Lexeme} (hls : WellSpelled ls)
    (h : ∀ e ∈ p, e.isDeclaration = true →
      e.span.stop ≤ pos ∨ pos + byteLength (spell ls) ≤ e.span.start) :
    p.left (place pos ls) = place pos ls := by
  rw [left, List.filter_eq_self]
  intro t ht
  obtain ⟨hstart, hlt, hstop⟩ := bounds_of_mem_place hls ht
  rw [Bool.not_eq_true']
  refine covers_eq_false hstart hlt hstop fun e he => ?_
  obtain ⟨he, hdeclaration⟩ := List.mem_filter.mp he
  exact h e he hdeclaration

theorem left_eq_nil {e : PlannedImport} (he : e ∈ p) (hdeclaration : e.isDeclaration = true)
    {ls : List Lexeme} (hls : WellSpelled ls)
    (hstop : e.span.start + byteLength (spell ls) = e.span.stop) :
    p.left (place e.span.start ls) = [] := by
  rw [left, List.filter_eq_nil_iff]
  intro t ht
  obtain ⟨hstart, hlt, hend⟩ := bounds_of_mem_place hls ht
  rw [Bool.not_eq_true', Bool.not_eq_false]
  refine List.any_eq_true.mpr ⟨e, List.mem_filter.mpr ⟨he, hdeclaration⟩, ?_⟩
  simp only [PlannedImport.covers, Bool.and_eq_true, decide_eq_true_eq]
  omega

/-- The token that packing leaves last among the lexemes in front, `first` if it leaves none. -/
def lastLeft (p : Plan) (first : Option TokenKind) (front : List Lexeme) : Option TokenKind :=
  ((p.left (place 0 front)).getLast?.map Token.kind).or first

theorem lastLeft_append_of_left (first : Option TokenKind) {front ls : List Lexeme}
    (h : p.left (place (byteLength (spell front)) ls) = place (byteLength (spell front)) ls) :
    p.lastLeft first (front ++ ls) = lastKind (p.lastLeft first front) ls := by
  rw [lastLeft, place_append, Nat.zero_add, left_append, h,
    lastKind_eq _ (byteLength (spell front)), lastLeft, List.getLast?_append]
  cases (place (byteLength (spell front)) ls).getLast? <;> rfl

theorem lastLeft_append_of_nil (first : Option TokenKind) {front ls : List Lexeme}
    (h : p.left (place (byteLength (spell front)) ls) = []) :
    p.lastLeft first (front ++ ls) = p.lastLeft first front := by
  rw [lastLeft, place_append, Nat.zero_add, left_append, h, List.append_nil, lastLeft]

/-- What takes the place of an entry: nothing for a declaration, lexemes that import nothing for a
call. -/
structure Swaps (p : Plan) (code : String) (x : PlannedImport × List Lexeme) : Prop where
  mem : x.1 ∈ p
  replaces : ∃ front ts back, tokenize code = front ++ (ts ++ back) ∧ Replaces x.1 front ts
  removed : x.1.isDeclaration = true → x.2 = []
  settled : x.1.isDeclaration = false → Settled x.2

/-- The edit that puts the lexemes in the place of the entry. -/
def swapEdit (x : PlannedImport × List Lexeme) : Edit := ⟨x.1.span, String.ofList (spell x.2)⟩

end Plan

/-- Two ways to cut lexemes, the first one in front of the second. -/
theorem exists_kept {front ls a b : List Lexeme} (h : front ++ ls = a ++ b)
    (hne : ∀ l ∈ front ++ ls, l.text ≠ [])
    (hlen : byteLength (spell front) ≤ byteLength (spell a)) :
    ∃ kept, a = front ++ kept ∧ ls = kept ++ b := by
  rcases List.append_eq_append_iff.mp h with ⟨kept, rfl, rfl⟩ | ⟨past, rfl, rfl⟩
  · exact ⟨kept, rfl, rfl⟩
  · cases past with
    | nil => exact ⟨[], by simp, rfl⟩
    | cons l past =>
        have := byteLength_pos (hne l (by simp))
        simp only [spell_append, spell_cons, byteLength_append] at hlen
        omega

/-- The lexemes that an entry takes, and the token in front of them. -/
structure Taken (code : String) (e : PlannedImport) (front kept taken : List Lexeme) : Prop where
  start : byteLength (spell front) + byteLength (spell kept) = e.span.start
  stop : e.span.start + byteLength (spell taken) = e.span.stop
  word : ∃ c cs, spell taken = c :: cs ∧ c.isAlpha = true
  replaces : Plan.Replaces e (place 0 (front ++ kept)) (place e.span.start taken)

theorem exists_taken {code : String} {e : PlannedImport} {front ls : List Lexeme}
    (htext : lexemes none code.toList = front ++ ls)
    (hahead : byteLength (spell front) ≤ e.span.start)
    (h : ∃ before ts back, tokenize code = before ++ (ts ++ back) ∧ Plan.Replaces e before ts) :
    ∃ kept taken rest, ls = kept ++ (taken ++ rest) ∧ Taken code e front kept taken := by
  obtain ⟨before, ts, back, htokens, hreplaces⟩ := h
  rw [tokenize] at htokens
  obtain ⟨a, l, c, b, hls, hstart, hstop, rfl, rfl, rfl, hfirst⟩ :=
    exists_stretch htokens hreplaces.takesUp
  rw [Nat.zero_add] at hstart
  rw [htext] at hls
  obtain ⟨kept, rfl, rfl⟩ := exists_kept hls
    (fun l hl => text_ne_nil_of_mem_lexemes (htext ▸ hl)) (by omega)
  refine ⟨kept, l :: c, b, rfl, ⟨?_, hstop, ?_, hreplaces⟩⟩
  · rw [← hstart, spell_append, byteLength_append]
  · obtain ⟨t, ht, hkind⟩ := hreplaces.word
    rw [ht] at hfirst
    have hmem : l ∈ lexemes none code.toList := by simp [htext]
    rcases hkind with hkind | hkind
    · rw [Option.map_some, hkind] at hfirst
      rw [spell_cons, (text_of_mem_lexemes hmem hfirst.symm).1]
      exact ⟨_, _, rfl, rfl⟩
    · rw [Option.map_some, hkind] at hfirst
      rw [spell_cons, (text_of_mem_lexemes hmem hfirst.symm).1]
      exact ⟨_, _, rfl, rfl⟩

namespace Taken

variable {code : String} {e : PlannedImport} {front kept taken rest : List Lexeme}

theorem lastKind_of_call (h : Taken code e front kept taken) (he : e.isDeclaration = false)
    (prior : Option TokenKind) : lastKind prior taken = some (.punct ')') := by
  obtain ⟨z, hz, hclose⟩ := h.replaces.call he
  rw [lastKind_eq prior e.span.start, hz, Option.map_some, kind_of_isPunct hclose]
  rfl

theorem lastKind_of_declaration (h : Taken code e front kept taken)
    (he : e.isDeclaration = true) (prior : Option TokenKind) :
    lastKind prior taken = some (.punct '\x7d') ∨ lastKind prior taken = some (.punct ';') := by
  obtain ⟨z, hz, hclose⟩ := h.replaces.declaration he
  rw [lastKind_eq prior e.span.start, hz, Option.map_some]
  exact hclose.imp (fun h => by rw [kind_of_isPunct h]; rfl)
    fun h => by rw [kind_of_isPunct h]; rfl

theorem undotted (h : Taken code e front kept taken) (he : e.isDeclaration = true) :
    lastKind none (front ++ kept) ≠ some (.punct '.') := by
  have hdot := h.replaces.undotted he
  rw [lastKind_eq none 0]
  intro hlast
  cases hz : (place 0 (front ++ kept)).getLast? with
  | none => simp [hz] at hlast
  | some z =>
      simp only [hz, Option.map_some, Option.some_or, Option.some.injEq] at hlast
      simp [hz, Token.isPunct, hlast] at hdot

theorem tokenize_eq (h : Taken code e front kept taken)
    (htext : lexemes none code.toList = front ++ (kept ++ (taken ++ rest))) :
    tokenize code = place 0 (front ++ kept) ++
      (place e.span.start taken ++ place e.span.stop rest) := by
  have hfront : 0 + byteLength (spell (front ++ kept)) = e.span.start := by
    rw [spell_append, byteLength_append, Nat.zero_add, h.start]
  rw [tokenize, htext, ← List.append_assoc, place_append 0 (front ++ kept), hfront,
    place_append e.span.start, h.stop]

/-- Where the tokens around the entry start, and those that it takes. -/
theorem start_of_mem (h : Taken code e front kept taken)
    (htext : lexemes none code.toList = front ++ (kept ++ (taken ++ rest))) :
    (∀ t ∈ place 0 (front ++ kept), t.span.start < e.span.start) ∧
      (∀ t ∈ place e.span.start taken, e.span.start ≤ t.span.start ∧ t.span.start < e.span.stop) ∧
      ∀ t ∈ place e.span.stop rest, e.span.stop ≤ t.span.start := by
  have hls := wellSpelled_lexemes none code.toList
  rw [htext, ← List.append_assoc] at hls
  refine ⟨?_, ?_, ?_⟩
  · intro t ht
    have hbounds := bounds_of_mem_place (fun l hl => hls l (List.mem_append_left _ hl)) ht
    rw [spell_append, byteLength_append, h.start] at hbounds
    omega
  · intro t ht
    have hbounds := bounds_of_mem_place (fun l hl => hls l (by simp [hl])) ht
    rw [h.stop] at hbounds
    omega
  · intro t ht
    exact (bounds_of_mem_place (fun l hl => hls l (by simp [hl])) ht).1

theorem joins (h : Taken code e front kept taken) {p : Plan}
    (hseam : p.Seamless (tokenize code)) (hmem : e ∈ p) (he : e.isDeclaration = true)
    (htext : lexemes none code.toList = front ++ (kept ++ (taken ++ rest))) :
    Plan.Joins ((p.left (place 0 (front ++ kept))).getLast?.map Token.kind)
      ((p.left (place e.span.stop rest)).head?.map Token.kind) := by
  have hjoins := hseam e hmem he
  obtain ⟨hfront, htaken, hrest⟩ := h.start_of_mem htext
  obtain ⟨u, hu, -⟩ := h.replaces.word
  have hu' := htaken u (List.mem_of_head? hu)
  rw [h.tokenize_eq htext] at hjoins
  rw [(takeWhile_start_lt hfront ?_).1, ← List.append_assoc, (takeWhile_start_lt ?_ ?_).2]
    at hjoins
  · exact hjoins
  · intro t ht
    rcases List.mem_append.mp ht with ht | ht
    · have := hfront t ht
      omega
    · exact (htaken t ht).2
  · exact fun t ht => hrest t (List.mem_of_mem_head? ht)
  · intro t ht
    rw [List.head?_append, hu] at ht
    cases ht
    exact hu'.1

end Taken

/-- What takes the place of an entry, behind the token `prior` and in front of the token `next`:
nothing for a declaration, lexemes that import nothing for a call. -/
inductive GivesWay (e : PlannedImport) (prior : Option TokenKind) :
    List Lexeme → Option TokenKind → Prop
  | removed {next : Option TokenKind} (declaration : e.isDeclaration = true)
      (joins : Plan.Joins prior next) : GivesWay e prior [] next
  | settled {new : List Lexeme} {next : Option TokenKind} (call : e.isDeclaration = false)
      (calm : Settled new) : GivesWay e prior new next

/-- Behind the lexemes `front` of the unit, `ls` become `ls'`: each entry gives way to its own
lexemes. After packing, the token `prior` stands in front. -/
inductive Stitched (code : String) : Option TokenKind → List Lexeme → List Lexeme →
    List (PlannedImport × List Lexeme) → List Lexeme → Prop
  | rest (prior : Option TokenKind) (front ls : List Lexeme) : Stitched code prior front ls [] ls
  | swap {prior : Option TokenKind} {front kept taken ls ls' new : List Lexeme}
      {e : PlannedImport} {swaps : List (PlannedImport × List Lexeme)}
      (takes : Taken code e front kept taken)
      (gives : GivesWay e (lastKind prior kept) new (firstKind? ls'))
      (behind : Stitched code (lastKind (lastKind prior kept) new) (front ++ kept ++ taken) ls
        swaps ls') :
      Stitched code prior front (kept ++ (taken ++ ls)) ((e, new) :: swaps)
        (kept ++ (new ++ ls'))

/-- What comes of a text that is read as its lexemes is read as its lexemes. -/
theorem Stitched.chain {code : String} {prior : Option TokenKind} {front ls ls' : List Lexeme}
    {swaps : List (PlannedImport × List Lexeme)} (h : Stitched code prior front ls swaps ls')
    (hls : Chain (lastKind none front) ls [])
    (hprior : Synced (lastKind none front) prior (firstKind? ls')) : Chain prior ls' [] := by
  induction h with
  | rest => exact hls.of_synced hprior fun _ _ _ h => h
  | @swap prior front kept taken ls ls' new e swaps takes gives _ ih =>
      obtain ⟨hkept, hrest⟩ := hls.of_append
      obtain ⟨-, hls⟩ := hrest.of_append
      rw [← lastKind_append, ← lastKind_append, ← List.append_assoc] at hls
      obtain ⟨c, cs, htaken, hc⟩ := takes.word
      refine Chain.append (hkept.of_synced hprior.of_append ?_) ?_
      · intro first l hl hstands
        rw [spell_append, htaken] at hstands
        refine hstands.of_letter hc fun hslash => ?_
        have hlast : lastKind prior kept = some (.punct '/') := by
          obtain ⟨init, rfl⟩ := List.getLast?_eq_some_iff.mp hl
          rw [lastKind_append, lastKind_cons, hslash]
          rfl
        cases gives with
        | removed _ joins => exact absurd hlast joins.1
        | settled _ calm =>
            obtain ⟨d, ds, hspell, hd⟩ := calm.word
            rw [spell_append, hspell]
            refine ⟨?_, ?_⟩ <;>
            · rintro hhead
              cases hhead
              cases hd
      · cases gives with
        | removed he joins =>
            refine ih hls ?_
            have hopens : TokenKind.opensRegex (lastKind none (front ++ kept ++ taken)) = true := by
              rw [lastKind_append]
              rcases takes.lastKind_of_declaration he (lastKind none (front ++ kept)) with h | h <;>
                rw [h] <;> rfl
            by_cases hnext : firstKind? ls' = some .regex
            · exact .inl ((joins.2 hnext).trans hopens.symm)
            · exact .inr ⟨hopens, hnext⟩
        | settled he calm =>
            refine Chain.append (calm.chain _ _) (ih hls (.inl ?_))
            rw [calm.closed, lastKind_append, takes.lastKind_of_call he]

/-- The lexemes of an entry give way to its own. -/
theorem Taken.givesWay {code : String} {e : PlannedImport}
    {front kept taken rest : List Lexeme} (h : Taken code e front kept taken) {p : Plan}
    (hseam : p.Seamless (tokenize code))
    (htext : lexemes none code.toList = front ++ (kept ++ (taken ++ rest)))
    {first next : Option TokenKind} (hfirst : Plan.Joins first (some .regex))
    (hnext : next = some .regex →
      (p.left (place e.span.stop rest)).head?.map Token.kind = some .regex)
    {new : List Lexeme} (hswaps : p.Swaps code (e, new)) :
    GivesWay e (p.lastLeft first (front ++ kept)) new next := by
  cases he : e.isDeclaration with
  | false => exact .settled he (hswaps.settled he)
  | true =>
      obtain rfl : new = [] := hswaps.removed he
      refine .removed he ?_
      have hjoins := h.joins hseam hswaps.mem he htext
      rw [Plan.lastLeft]
      cases hlast : (p.left (place 0 (front ++ kept))).getLast? with
      | none => exact ⟨hfirst.1, fun _ => hfirst.2 rfl⟩
      | some t =>
          rw [hlast] at hjoins
          exact ⟨hjoins.1, fun hregex => hjoins.2 (hnext hregex)⟩

/-- The entries that have not been reached start behind the lexemes in front, and those that have
been end there. -/
structure Plan.Remaining (p : Plan) (code : String) (front ls : List Lexeme)
    (swaps : List (PlannedImport × List Lexeme)) : Prop where
  text : lexemes none code.toList = front ++ ls
  swap : ∀ x ∈ swaps, p.Swaps code x
  sorted : swaps.Pairwise fun x y => x.1.span.stop ≤ y.1.span.start
  ahead : ∀ x ∈ swaps, byteLength (spell front) ≤ x.1.span.start
  reached : ∀ e ∈ p, e.span.stop ≤ byteLength (spell front) ∨ e ∈ swaps.map Prod.fst

namespace Plan.Remaining

variable {p : Plan} {code : String} {front kept taken ls : List Lexeme} {e : PlannedImport}
  {new : List Lexeme} {swaps : List (PlannedImport × List Lexeme)}

/-- Up to the next entry there is no other one, and behind it neither. -/
theorem cases (h : Remaining p code front ls ((e, new) :: swaps)) {d : PlannedImport} (hd : d ∈ p) :
    d.span.stop ≤ byteLength (spell front) ∨ d = e ∨ e.span.stop ≤ d.span.start := by
  refine (h.reached d hd).imp id fun hmem => ?_
  rw [List.map_cons, List.mem_cons] at hmem
  refine hmem.imp id fun hmem => ?_
  obtain ⟨x, hx, rfl⟩ := List.mem_map.mp hmem
  exact (List.pairwise_cons.mp h.sorted).1 x hx

theorem next (h : Remaining p code front (kept ++ (taken ++ ls)) ((e, new) :: swaps))
    (htaken : Taken code e front kept taken) :
    Remaining p code (front ++ kept ++ taken) ls swaps := by
  have hstart := htaken.start
  have hstop := htaken.stop
  have hlength : byteLength (spell (front ++ kept ++ taken)) = e.span.stop := by
    simp only [spell_append, byteLength_append]
    omega
  refine ⟨by rw [h.text]; simp, fun x hx => h.swap x (List.mem_cons_of_mem _ hx),
    (List.pairwise_cons.mp h.sorted).2, ?_, ?_⟩
  · intro x hx
    rw [hlength]
    exact (List.pairwise_cons.mp h.sorted).1 x hx
  · intro d hd
    rw [hlength]
    rcases h.reached d hd with hle | hmem
    · exact .inl (by omega)
    · rcases List.mem_cons.mp hmem with rfl | hmem
      · exact .inl (Nat.le_refl _)
      · exact .inr hmem

theorem wellSpelled (h : Remaining p code front ls swaps) : WellSpelled (front ++ ls) :=
  h.text ▸ wellSpelled_lexemes none code.toList

/-- Up to the next entry all tokens are left. -/
theorem left_kept (h : Remaining p code front (kept ++ (taken ++ ls)) ((e, new) :: swaps))
    (htaken : Taken code e front kept taken) :
    p.left (place (byteLength (spell front)) kept) = place (byteLength (spell front)) kept := by
  refine left_place (fun l hl => h.wellSpelled l (by simp [hl])) fun d hd _ => ?_
  rw [htaken.start]
  have hle := htaken.stop
  rcases h.cases hd with h | rfl | h
  · exact .inl h
  · exact .inr (Nat.le_refl _)
  · exact .inr (by omega)

/-- Of what an entry takes, all tokens are left if it is a call, and none if not. -/
theorem left_taken (h : Remaining p code front (kept ++ (taken ++ ls)) ((e, new) :: swaps))
    (htaken : Taken code e front kept taken) :
    p.left (place e.span.start taken) =
      if e.isDeclaration then [] else place e.span.start taken := by
  have hls : WellSpelled taken := fun l hl => h.wellSpelled l (by simp [hl])
  split
  · next he => exact left_eq_nil (h.swap _ List.mem_cons_self).mem he hls htaken.stop
  · next he =>
      refine left_place hls fun d hd hdeclaration => ?_
      have hle := htaken.start
      rw [htaken.stop]
      rcases h.cases hd with h | rfl | h
      · exact .inl (by omega)
      · exact absurd hdeclaration he
      · exact .inr h

theorem lastLeft_kept (h : Remaining p code front (kept ++ (taken ++ ls)) ((e, new) :: swaps))
    (htaken : Taken code e front kept taken) (first : Option TokenKind) :
    p.lastLeft first (front ++ kept) = lastKind (p.lastLeft first front) kept :=
  lastLeft_append_of_left first (h.left_kept htaken)

/-- What an entry takes and what takes its place end alike, as far as it is left. -/
theorem lastLeft_taken (h : Remaining p code front (kept ++ (taken ++ ls)) ((e, new) :: swaps))
    (htaken : Taken code e front kept taken) (first : Option TokenKind) :
    p.lastLeft first (front ++ kept ++ taken) =
      lastKind (p.lastLeft first (front ++ kept)) new := by
  have hswap := h.swap _ List.mem_cons_self
  have hleft := h.left_taken htaken
  rw [← htaken.start, ← byteLength_append, ← spell_append] at hleft
  split at hleft
  · next he =>
      obtain rfl : new = [] := hswap.removed he
      exact lastLeft_append_of_nil first hleft
  · next he =>
      have he : e.isDeclaration = false := by simpa using he
      rw [lastLeft_append_of_left first hleft, htaken.lastKind_of_call he,
        (hswap.settled he).closed]

/-- A regular expression that comes first after packing is the first token that is left. -/
theorem head?_left (h : Remaining p code front (kept ++ (taken ++ ls)) ((e, new) :: swaps))
    (htaken : Taken code e front kept taken) {ls' : List Lexeme}
    (hbehind : firstKind? ls' = some .regex →
      (p.left (place e.span.stop ls)).head?.map Token.kind = some .regex)
    (hregex : firstKind? (kept ++ (new ++ ls')) = some .regex) :
    (p.left (place (byteLength (spell front)) (kept ++ (taken ++ ls)))).head?.map Token.kind =
      some .regex := by
  have hswap := h.swap _ List.mem_cons_self
  rw [place_append, htaken.start, place_append, htaken.stop, left_append, left_append,
    h.left_kept htaken, h.left_taken htaken, List.head?_append, List.head?_append]
  rw [firstKind?_append, firstKind?_append, firstKind?_eq (byteLength (spell front)) kept]
    at hregex
  cases hkept : (place (byteLength (spell front)) kept).head? with
  | some t =>
      rw [hkept] at hregex
      exact hregex
  | none =>
      rw [hkept, Option.map_none, Option.none_or] at hregex
      rw [Option.none_or]
      split
      · next he =>
          obtain rfl : new = [] := hswap.removed he
          exact hbehind hregex
      · next he =>
          obtain ⟨name, hname⟩ := (hswap.settled (by simpa using he)).first
          rw [hname] at hregex
          cases hregex

end Plan.Remaining

/-- The edits of a plan make of the lexemes of a unit what is stitched together from them. -/
theorem exists_stitched {p : Plan} {code : String} (hseam : p.Seamless (tokenize code))
    {first : Option TokenKind} (hfirst : Plan.Joins first (some .regex)) {front ls : List Lexeme}
    {swaps : List (PlannedImport × List Lexeme)} (h : p.Remaining code front ls swaps) :
    ∃ ls', Stitched code (p.lastLeft first front) front ls swaps ls' ∧
      Edits.patched (byteLength (spell front)) (spell ls) (swaps.map Plan.swapEdit) = spell ls' ∧
      (firstKind? ls' = some .regex →
        (p.left (place (byteLength (spell front)) ls)).head?.map Token.kind = some .regex) := by
  induction swaps generalizing front ls with
  | nil =>
      refine ⟨ls, .rest _ _ _, Edits.patched_nil _ _, fun hregex => ?_⟩
      rw [Plan.left_place (fun l hl => h.wellSpelled l (by simp [hl])), ← firstKind?_eq, hregex]
      intro e he _
      exact .inl ((h.reached e he).resolve_right nofun)
  | cons x swaps ih =>
      obtain ⟨e, new⟩ := x
      have hswap := h.swap _ List.mem_cons_self
      obtain ⟨kept, taken, rest, rfl, htaken⟩ :=
        exists_taken h.text (h.ahead _ List.mem_cons_self) hswap.replaces
      obtain ⟨ls', hstitched, htext, hregex⟩ := ih (h.next htaken)
      have hstop : byteLength (spell (front ++ kept ++ taken)) = e.span.stop := by
        rw [spell_append, spell_append, byteLength_append, byteLength_append, htaken.start,
          htaken.stop]
      rw [hstop] at htext hregex
      have hgives := htaken.givesWay hseam h.text hfirst hregex hswap
      rw [h.lastLeft_kept htaken] at hgives
      rw [h.lastLeft_taken htaken, h.lastLeft_kept htaken] at hstitched
      refine ⟨kept ++ (new ++ ls'), .swap htaken hgives hstitched, ?_,
        h.head?_left htaken hregex⟩
      have hpatched := @Edits.patched_cons _ _ _ (spell rest) (Plan.swapEdit (e, new))
        (swaps.map Plan.swapEdit) htaken.start htaken.stop
      simp only [spell_append, List.map_cons]
      rw [hpatched, ← htext]
      simp only [Plan.swapEdit, String.toList_ofList]

end StyleBundler
