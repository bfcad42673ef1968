import StyleBundler.Proofs.Script.Cursor
import StyleBundler.Proofs.Script.Placing

/-!
The spans of an import node: its own, those of its parts, and those of the values inside of its
object literals. Each is that of tokens one behind the other, so it is never empty and always a part
of the text, and what is part of something lies in it (`wellPlaced_importNodes`).
-/

namespace StyleBundler

open Text

/-- The one span lies in the other. -/
def Span.Within (s r : Span) : Prop := r.start ≤ s.start ∧ s.stop ≤ r.stop

/-- The span can be cut out of the text, and is not empty. -/
structure Span.IsPartOf (cs : List Char) (s : Span) : Prop where
  nonempty : s.start < s.stop
  bounded : s.stop ≤ byteLength cs
  start : IsBoundary cs s.start
  stop : IsBoundary cs s.stop
  text : ∃ part, slice? cs s = some part ∧ part ≠ []

theorem Span.isPartOf_of_slice? {cs part : List Char} {s : Span} (h : slice? cs s = some part)
    (hlt : s.start < s.stop) : s.IsPartOf cs := by
  obtain ⟨-, hstart, hstop⟩ := isSome_slice?_iff.mp (Option.isSome_of_eq_some h)
  obtain ⟨a, b, rfl, ha, hpart⟩ := slice?_eq_some_iff.mp h
  refine ⟨hlt, ?_, hstart, hstop, part, h, ?_⟩
  · rw [byteLength_append, byteLength_append]
    omega
  · rintro rfl
    simp at hpart
    omega

namespace Script

mutual

/-- The span of an expression, and those of the values that it holds. -/
def Expr.spans : Expr → List Span
  | .object s properties => s :: propertySpans properties
  | .str s _ | .template s _ | .sum s | .ident s _ | .other s => [s]

def propertySpans : List (String × Expr) → List Span
  | [] => []
  | (_, value) :: properties => value.spans ++ propertySpans properties

end

theorem propertySpans_append (a b : List (String × Expr)) :
    propertySpans (a ++ b) = propertySpans a ++ propertySpans b := by
  induction a with
  | nil => rfl
  | cons p a ih => simp only [List.cons_append, propertySpans, ih, List.append_assoc]

def ObjectLiteral.spans (o : ObjectLiteral) : List Span := o.span :: propertySpans o.properties

/-- All spans of a node. -/
def ImportNode.spans : ImportNode → List Span
  | .declaration d =>
      d.span :: d.sourceSpan :: d.attributes.toList.flatMap fun a => a.entries.spans
  | .call c =>
      c.span :: (c.argument.spans ++ (c.options.toList.flatMap ObjectLiteral.spans ++
        c.binding.toList.map CallBinding.initialiser))

/-- The parts of a node lie in it one behind the other, and the values of an object literal in that;
a variable is initialised up to the end of the call. -/
def ImportNode.Nested : ImportNode → Prop
  | .declaration d =>
      d.sourceSpan.Within d.span ∧
        ∀ a ∈ d.attributes, a.entries.span.Within d.span ∧
          d.sourceSpan.stop ≤ a.entries.span.start ∧
          ∀ s ∈ a.entries.spans, s.Within a.entries.span
  | .call c =>
      c.argument.span.Within c.span ∧ (∀ s ∈ c.argument.spans, s.Within c.argument.span) ∧
        (∀ o ∈ c.options, o.span.Within c.span ∧ c.argument.span.stop ≤ o.span.start ∧
          ∀ s ∈ o.spans, s.Within o.span) ∧
        ∀ b ∈ c.binding, c.span.Within b.initialiser ∧ b.initialiser.stop = c.span.stop

/-- The span is that of tokens one behind the other among `ts`. -/
def TakesUpPart (s : Span) (ts : List Token) : Prop := ∃ part, part <:+: ts ∧ TakesUp s part

/-- The first span is that of `ts`, and the others are in it. -/
def TakesUpAll (s : Span) (spans : List Span) (ts : List Token) : Prop :=
  TakesUp s ts ∧ ∀ r ∈ spans, TakesUpPart r ts

theorem TakesUp.singleton (t : Token) : TakesUp t.span [t] := ⟨t, t, rfl, rfl, rfl⟩

theorem TakesUp.concat (t z : Token) (inner : List Token) :
    TakesUp ⟨t.span.start, z.span.stop⟩ (t :: (inner ++ [z])) :=
  ⟨t, z, rfl, by rw [← List.cons_append, List.getLast?_concat], rfl⟩

theorem TakesUp.append {s r : Span} {ts us : List Token} (h : TakesUp s ts) (hr : TakesUp r us) :
    TakesUp ⟨s.start, r.stop⟩ (ts ++ us) := by
  obtain ⟨t, -, ht, -, rfl⟩ := h
  obtain ⟨-, z, -, hz, rfl⟩ := hr
  exact ⟨t, z, by rw [List.head?_append, ht]; rfl, by rw [List.getLast?_append, hz]; rfl, rfl⟩

theorem TakesUp.part {s : Span} {ts : List Token} (h : TakesUp s ts) : TakesUpPart s ts :=
  ⟨ts, List.infix_rfl, h⟩

theorem TakesUpPart.mono {s : Span} {ts us : List Token} (h : TakesUpPart s ts) (hts : ts <:+: us) :
    TakesUpPart s us := by
  obtain ⟨part, hpart, hs⟩ := h
  exact ⟨part, hpart.trans hts, hs⟩

section Order

variable {s r : Span} {ts us : List Token}

theorem InOrder.mono (h : InOrder us) (hts : ts <:+: us) : InOrder ts :=
  ⟨fun t ht => h.1 t (hts.subset ht), h.2.sublist hts.sublist⟩

theorem TakesUp.encloses_of_mem (h : TakesUp s ts) (hts : InOrder ts) {u : Token} (hu : u ∈ ts) :
    s.start ≤ u.span.start ∧ u.span.stop ≤ s.stop := by
  obtain ⟨t, z, ht, hz, rfl⟩ := h
  obtain ⟨more, rfl⟩ := List.head?_eq_some_iff.mp ht
  obtain ⟨front, hfront⟩ := List.getLast?_eq_some_iff.mp hz
  have hlt := hts.start_lt_stop hu
  constructor
  · rcases List.mem_cons.mp hu with rfl | hu
    · exact Nat.le_refl _
    · have hstop := (List.pairwise_cons.mp hts.2).1 u hu
      have hfirst := hts.start_lt_stop (t := t) List.mem_cons_self
      dsimp only
      omega
  · rw [hfront] at hts hu
    rcases List.mem_append.mp hu with hu | hu
    · have hstop := hts.stop_le hu (List.mem_singleton_self z)
      have hlast := hts.start_lt_stop (t := z) (by simp)
      dsimp only
      omega
    · exact (List.mem_singleton.mp hu) ▸ Nat.le_refl _

/-- What takes up a part of the tokens lies in what takes up all of them. -/
theorem TakesUpPart.within (h : TakesUpPart s ts) (hr : TakesUp r ts) (hts : InOrder ts) :
    s.Within r := by
  obtain ⟨part, hpart, t, z, ht, hz, rfl⟩ := h
  exact ⟨(hr.encloses_of_mem hts (hpart.subset (List.mem_of_head? ht))).1,
    (hr.encloses_of_mem hts (hpart.subset (List.mem_of_getLast? hz))).2⟩

theorem TakesUp.stop_le_start (h : TakesUp s ts) (hr : TakesUpPart r us)
    (hts : InOrder (ts ++ us)) : s.stop ≤ r.start := by
  obtain ⟨-, z, -, hz, rfl⟩ := h
  obtain ⟨part, hpart, t, -, ht, -, rfl⟩ := hr
  exact hts.stop_le (List.mem_of_getLast? hz) (hpart.subset (List.mem_of_head? ht))

theorem TakesUp.start_lt_stop (h : TakesUp s ts) (hts : InOrder ts) : s.start < s.stop := by
  obtain ⟨t, z, ht, hz, rfl⟩ := h
  have hlt := hts.start_lt_stop (List.mem_of_head? ht)
  have hle := TakesUp.encloses_of_mem ⟨t, z, ht, hz, rfl⟩ hts (List.mem_of_head? ht)
  dsimp only at hle ⊢
  omega

/-- Tokens one behind the other take up a part of the text. -/
theorem TakesUpPart.isPartOf {code : String} (h : TakesUpPart s (tokenize code)) :
    s.IsPartOf code.toList := by
  obtain ⟨part, hpart, hs⟩ := h
  have hin : InOrder part := (inOrder_tokenize code).mono hpart
  have hlt := hs.start_lt_stop hin
  obtain ⟨t, z, ht, hz, rfl⟩ := hs
  obtain ⟨text, htext⟩ := exists_slice_between (hpart.subset (List.mem_of_head? ht))
    (hpart.subset (List.mem_of_getLast? hz))
    (TakesUp.encloses_of_mem ⟨t, z, ht, hz, rfl⟩ hin (List.mem_of_getLast? hz)).1
  exact Span.isPartOf_of_slice? htext hlt

end Order

/-- What is no object literal takes up its tokens and holds nothing. -/
theorem readPlain?_takesUp {ts rest : List Token} {e : Expr}
    (h : readPlain? ts = some (e, rest)) :
    ∃ taken, ts = taken ++ rest ∧ TakesUpAll e.span e.spans taken := by
  rw [readPlain?_eq] at h
  obtain ⟨found, hfound, hpair⟩ := Option.map_eq_some_iff.mp h
  obtain ⟨rfl, rfl⟩ := Prod.mk.inj hpair
  refine ⟨_, (Operand.tokens_append_rest 0 ts).symm, ?_⟩
  suffices htakes : TakesUp found.span (Operand.read 0 ts).tokens ∧ found.spans = [found.span] by
    refine ⟨htakes.1, fun s hs => ?_⟩
    rw [htakes.2, List.mem_singleton] at hs
    exact hs ▸ htakes.1.part
  unfold Operand.toExpr? at hfound
  split at hfound
  · cases hfound
  · next t htokens =>
      cases hfound
      rw [htokens]
      cases t.kind <;> exact ⟨.singleton t, rfl⟩
  · next t u more htokens =>
      rw [htokens]
      have hlast : TakesUp
          ⟨t.span.start, ((u :: more).getLast (List.cons_ne_nil _ _)).span.stop⟩
          (t :: u :: more) :=
        ⟨t, _, rfl, by rw [List.getLast?_cons_cons, List.getLast?_eq_getLast_of_ne_nil], rfl⟩
      split at hfound <;> cases hfound <;> exact ⟨hlast, rfl⟩

/-- What the values take up in the tokens of the entries, their object literal does with its braces
around them. -/
theorem TakesUpAll.braced (t z : Token) {inner : List Token} {found : List (String × Expr)}
    (h : ∀ s ∈ propertySpans found, TakesUpPart s inner) :
    TakesUpAll ⟨t.span.start, z.span.stop⟩
      (⟨t.span.start, z.span.stop⟩ :: propertySpans found) (t :: (inner ++ [z])) := by
  have htakes : TakesUp ⟨t.span.start, z.span.stop⟩ (t :: (inner ++ [z])) := .concat t z inner
  refine ⟨htakes, fun s hs => ?_⟩
  rcases List.mem_cons.mp hs with rfl | hs
  · exact htakes.part
  · exact (h s hs).mono ⟨[t], [z], by simp⟩

/-- The expression read takes up the tokens in front of the rest, and the values in it parts of
them. -/
def ExprTakesUp (ts : List Token) : Prop :=
  ∀ e rest, readExpr? ts = some (e, rest) →
    ∃ taken, ts = taken ++ rest ∧ TakesUpAll e.span e.spans taken

/-- The entries read stop at a brace, and their values take up parts of what is in front of it. -/
def EntriesTakeUp (ts : List Token) : Prop :=
  ∀ found stop rest, readProperties? ts = some (found, stop, rest) →
    ∃ inner z, ts = inner ++ z :: rest ∧ stop = z.span.stop ∧
      ∀ s ∈ propertySpans found, TakesUpPart s inner

theorem ExprTakesUp.cons {t : Token} {ts : List Token} (hentries : EntriesTakeUp ts) :
    ExprTakesUp (t :: ts) := by
  intro e rest h
  rw [readExpr?_cons] at h
  split at h
  · split at h
    · next hproperties =>
        split at h
        · cases h
          obtain ⟨inner, z, rfl, rfl, hinner⟩ := hentries _ _ _ hproperties
          exact ⟨t :: (inner ++ [z]), by simp, .braced t z hinner⟩
        · exact readPlain?_takesUp h
    · exact readPlain?_takesUp h
  · exact readPlain?_takesUp h

/-- The values of entries are that of the first, where it has a name, and those of the others. -/
theorem EntriesTakeUp.cons {t : Token} {ts : List Token}
    (hvalue : ExprTakesUp (entryOperand t ts).2)
    (hmore : ∀ value left left', readExpr? (entryOperand t ts).2 = some (value, left) →
      skipComma? left = some left' → EntriesTakeUp left') :
    EntriesTakeUp (t :: ts) := by
  intro found stop rest h
  rw [readProperties?_cons] at h
  split at h
  · cases h
    exact ⟨[], t, rfl, rfl, nofun⟩
  · obtain ⟨⟨value, left⟩, hread, h⟩ := Option.bind_eq_some_iff.mp h
    obtain ⟨left', hskip, h⟩ := Option.bind_eq_some_iff.mp h
    obtain ⟨⟨found', stop', rest'⟩, hfound, hr⟩ := Option.map_eq_some_iff.mp h
    cases hr
    obtain ⟨taken, htaken, htakes⟩ := hvalue _ _ hread
    obtain ⟨inner, z, rfl, hz, hinner⟩ := hmore _ _ _ hread hskip _ _ _ hfound
    obtain ⟨key, hkey⟩ := entryOperand_suffix t ts
    obtain ⟨comma, hcomma⟩ := skipComma?_suffix hskip
    refine ⟨key ++ (taken ++ (comma ++ inner)), z, ?_, hz, fun s hs => ?_⟩
    · rw [← hkey, htaken, ← hcomma]
      simp only [List.append_assoc]
    · rw [propertySpans_append, List.mem_append] at hs
      rcases hs with hs | hs
      · refine (htakes.2 s ?_).mono ⟨key, comma ++ inner, by simp⟩
        cases hname : (entryOperand t ts).1 with
        | none => simp [hname, propertySpans] at hs
        | some name => simpa [hname, propertySpans] using hs
      · exact (hinner s hs).mono ⟨key ++ (taken ++ comma), [], by simp⟩

/-- The induction is on the length, a step of it from the entries of an object literal to their
operands. -/
theorem read_takesUp (n : Nat) :
    (∀ ts : List Token, 2 * ts.length ≤ n → ExprTakesUp ts) ∧
      ∀ ts : List Token, 2 * ts.length + 1 ≤ n → EntriesTakeUp ts := by
  induction n with
  | zero =>
      refine ⟨fun ts hle => ?_, by omega⟩
      obtain rfl := List.eq_nil_of_length_eq_zero (by omega : ts.length = 0)
      exact fun e rest h => by cases readExpr?_nil.symm.trans h
  | succ n ih =>
      obtain ⟨ihExpr, ihEntries⟩ := ih
      constructor
      · intro ts hle
        cases ts with
        | nil => exact fun e rest h => by cases readExpr?_nil.symm.trans h
        | cons t ts =>
            rw [List.length_cons] at hle
            exact .cons (ihEntries ts (by omega))
      · intro ts hle
        cases ts with
        | nil => exact fun found stop rest h => by cases readProperties?_nil.symm.trans h
        | cons t ts =>
            rw [List.length_cons] at hle
            have hoperand := length_entryOperand_le t ts
            refine .cons (ihExpr _ (by omega)) fun value left left' hread hskip => ?_
            have hleft := length_rest_readExpr?_lt hread
            have hleft' := length_skipComma?_le hskip
            exact ihEntries left' (by omega)

theorem readExpr?_takesUp {ts rest : List Token} {e : Expr} (h : readExpr? ts = some (e, rest)) :
    ∃ taken, ts = taken ++ rest ∧ TakesUpAll e.span e.spans taken :=
  (read_takesUp _).1 ts (Nat.le_refl _) e rest h

theorem Expr.span_spans_of_asObject? {e : Expr} {o : ObjectLiteral} (h : e.asObject? = some o) :
    e.span = o.span ∧ e.spans = o.spans := by
  cases e <;> cases h
  exact ⟨rfl, rfl⟩

theorem attributes?_takesUp {ts rest : List Token} {a : Attributes}
    (h : attributes? ts = some (some a, rest)) :
    ∃ keyword taken, ts = keyword :: taken ++ rest ∧
      TakesUpAll a.entries.span a.entries.spans taken := by
  match ts with
  | [] | [_] => cases h
  | keyword :: brace :: ts =>
      rw [attributes?_cons_cons] at h
      split at h
      · split at h
        · split at h
          · obtain ⟨⟨found, stop, left⟩, hread, hr⟩ := Option.map_eq_some_iff.mp h
            cases hr
            obtain ⟨inner, z, rfl, rfl, hinner⟩ :=
              (read_takesUp _).2 ts (Nat.le_refl _) _ _ _ hread
            exact ⟨keyword, brace :: (inner ++ [z]), by simp, .braced brace z hinner⟩
          · cases h
        · cases h
      · cases h

theorem readOptions?_takesUp {ts rest : List Token} {o : ObjectLiteral}
    (h : readOptions? ts = some (some o, rest)) :
    ∃ comma taken trail, ts = comma :: (taken ++ (trail ++ rest)) ∧
      TakesUpAll o.span o.spans taken := by
  cases ts with
  | nil => cases h
  | cons comma ts =>
      rw [readOptions?] at h
      split at h
      · cases ts with
        | nil => cases h
        | cons t ts =>
            rw [callOptions?_cons] at h
            split at h
            · cases h
            · obtain ⟨⟨value, left⟩, hvalue, h⟩ := Option.bind_eq_some_iff.mp h
              obtain ⟨left', hskip, hparts⟩ := Option.map_eq_some_iff.mp h
              obtain ⟨ho, rfl⟩ := Prod.mk.inj hparts
              obtain ⟨taken, hts, htaken⟩ := readExpr?_takesUp hvalue
              obtain ⟨trail, htrail⟩ := skipComma?_suffix hskip
              obtain ⟨hspan, hspans⟩ := Expr.span_spans_of_asObject? ho
              rw [hspan, hspans] at htaken
              exact ⟨comma, taken, trail, by rw [hts, htrail], htaken⟩
      · cases h

/-- A declaration ends with a semicolon or with what is in front of it. -/
theorem TakesUp.declarationEnd {s : Span} {ts : List Token} (h : TakesUp s ts)
    (left : List Token) :
    ∃ semicolon rest, left = semicolon ++ rest ∧
      TakesUp ⟨s.start, declarationEnd s.stop left⟩ (ts ++ semicolon) := by
  cases left with
  | nil => exact ⟨[], [], rfl, by simpa [Script.declarationEnd] using h⟩
  | cons t left =>
      rw [Script.declarationEnd]
      split
      · exact ⟨[t], left, rfl, h.append (.singleton t)⟩
      · exact ⟨[], t :: left, rfl, by simpa using h⟩

theorem exists_parts_of_declaration? {t : Token} {ts : List Token} {name : String}
    {d : ImportDeclaration} (hword : t.kind = .ident name)
    (h : declaration? t.span.start ts = some d) :
    ∃ front behind rest,
      t :: ts = front ++ [⟨.str d.source, d.sourceSpan⟩] ++ behind ++ rest ∧
      TakesUp d.span (front ++ [⟨.str d.source, d.sourceSpan⟩] ++ behind) ∧
      ∀ a ∈ d.attributes, ∃ object, object <:+: behind ∧
        TakesUpAll a.entries.span a.entries.spans object := by
  obtain ⟨bound, rest, left, hclause, hattributes, -, -, hspan⟩ :=
    exists_readClause?_of_declaration? h
  obtain ⟨front, word, -, hts, -⟩ := readClause?_foothold hword hclause
  have hspecifier : TakesUp ⟨t.span.start, d.sourceSpan.stop⟩
      (front ++ [word] ++ [⟨.str d.source, d.sourceSpan⟩]) := by
    refine ⟨t, ⟨.str d.source, d.sourceSpan⟩, ?_, List.getLast?_concat .., rfl⟩
    have hhead := congrArg List.head? hts
    cases front <;> simpa using hhead.symm
  cases ha : d.attributes with
  | none =>
      rw [ha] at hattributes hspan
      obtain ⟨-, rfl⟩ | ⟨a, -, -, ha, -⟩ := attributes?_closes hattributes
      · obtain ⟨semicolon, rest, rfl, htakes⟩ := hspecifier.declarationEnd left
        exact ⟨front ++ [word], semicolon, rest, by simp [hts], hspan ▸ htakes, nofun⟩
      · cases ha
  | some a =>
      rw [ha] at hattributes hspan
      obtain ⟨keyword, object, rfl, htakes⟩ := attributes?_takesUp hattributes
      have hobject := hspecifier.append ((TakesUp.singleton keyword).append htakes.1)
      obtain ⟨semicolon, rest, rfl, hend⟩ := hobject.declarationEnd left
      refine ⟨front ++ [word], [keyword] ++ object ++ semicolon, rest, by simp [hts], ?_, ?_⟩
      · rw [hspan]
        simpa [List.append_assoc] using hend
      · intro b hb
        cases hb
        exact ⟨object, ⟨[keyword], semicolon, rfl⟩, htakes⟩

theorem exists_parts_of_call? {start : Nat} {before ts : List Token} {c : ImportCall}
    (h : call? start before ts = some c) :
    ∃ argument behind z rest, ts = argument ++ (behind ++ z :: rest) ∧
      c.span = ⟨start, z.span.stop⟩ ∧ TakesUpAll c.argument.span c.argument.spans argument ∧
      ∀ o ∈ c.options, ∃ object, object <:+: behind ∧ TakesUpAll o.span o.spans object := by
  obtain ⟨left, z, rest, hargument, hoptions, -, hspan, -⟩ := exists_readExpr?_of_call? h
  obtain ⟨argument, rfl, htakes⟩ := readExpr?_takesUp hargument
  cases ho : c.options with
  | none =>
      obtain ⟨behind, hbehind⟩ := readOptions?_suffix hoptions
      exact ⟨argument, behind, z, rest, by rw [hbehind], hspan, htakes, nofun⟩
  | some o =>
      rw [ho] at hoptions
      obtain ⟨comma, object, trail, rfl, hobject⟩ := readOptions?_takesUp hoptions
      refine ⟨argument, comma :: (object ++ trail), z, rest, by simp, hspan, htakes, ?_⟩
      intro o' ho'
      cases ho'
      exact ⟨object, ⟨[comma], trail, rfl⟩, hobject⟩

/-- A variable is initialised by the call, or by it and the `await` in front. -/
theorem initialiser_of_callBinding? {call : Span} {before : List Token} {b : CallBinding}
    (h : callBinding? call before = some b) :
    b.initialiser = call ∨
      ∃ w more, before = w :: more ∧ b.initialiser = ⟨w.span.start, call.stop⟩ := by
  by_cases hawaited : b.awaited = true
  · obtain ⟨w, more, hbefore, -, hspan⟩ := exists_await_of_callBinding? h hawaited
    exact .inr ⟨w, more, hbefore, hspan⟩
  · rw [callBinding?_eq] at h
    cases before with
    | nil => cases h
    | cons w more =>
        dsimp only at h
        split at h
        · obtain ⟨name, -, rfl⟩ := Option.map_eq_some_iff.mp h
          exact absurd rfl hawaited
        · obtain ⟨name, -, rfl⟩ := Option.map_eq_some_iff.mp h
          exact .inl rfl

/-- What a variable is initialised by takes up the tokens up to the end of the call. -/
theorem initialiser_takesUpPart {call : Span} {before taken : List Token} {b : CallBinding}
    (h : callBinding? call before = some b) (hcall : TakesUp call taken)
    (hts : InOrder (before.reverse ++ taken)) :
    TakesUpPart b.initialiser (before.reverse ++ taken) ∧
      call.Within b.initialiser ∧ b.initialiser.stop = call.stop := by
  rcases initialiser_of_callBinding? h with hspan | ⟨w, more, rfl, hspan⟩
  · rw [hspan]
    exact ⟨hcall.part.mono (List.suffix_append _ _).isInfix, ⟨Nat.le_refl _, Nat.le_refl _⟩, rfl⟩
  · have hawaited : [w] ++ taken <:+: (w :: more).reverse ++ taken := ⟨more.reverse, [], by simp⟩
    have hbefore := hts.mono hawaited
    have hstop : w.span.stop ≤ call.start := (TakesUp.singleton w).stop_le_start hcall.part hbefore
    have hlt := hbefore.start_lt_stop (t := w) (by simp)
    rw [hspan]
    exact ⟨((TakesUp.singleton w).append hcall).part.mono hawaited,
      ⟨by dsimp only; omega, Nat.le_refl _⟩, rfl⟩

section Node

variable {before ts : List Token} {t : Token}

theorem declaration?_spans {name : String} {d : ImportDeclaration} (hword : t.kind = .ident name)
    (h : declaration? t.span.start ts = some d) (hts : InOrder (t :: ts)) :
    (∀ s ∈ (ImportNode.declaration d).spans, TakesUpPart s (t :: ts)) ∧
      (ImportNode.declaration d).Nested := by
  obtain ⟨front, behind, rest, heq, htakes, hattributes⟩ := exists_parts_of_declaration? hword h
  have hspecifier : TakesUp d.sourceSpan [⟨.str d.source, d.sourceSpan⟩] := .singleton _
  have htaken : front ++ [⟨.str d.source, d.sourceSpan⟩] ++ behind <:+: t :: ts :=
    ⟨[], rest, heq.symm⟩
  have hbehind : behind <:+: front ++ [⟨.str d.source, d.sourceSpan⟩] ++ behind :=
    (List.suffix_append _ behind).isInfix
  have hpart : TakesUpPart d.sourceSpan (front ++ [⟨.str d.source, d.sourceSpan⟩] ++ behind) :=
    hspecifier.part.mono ⟨front, behind, rfl⟩
  have hinOrder := hts.mono htaken
  refine ⟨fun s hs => ?_, hpart.within htakes hinOrder, fun a ha => ?_⟩
  · rcases List.mem_cons.mp hs with rfl | hs
    · exact htakes.part.mono htaken
    rcases List.mem_cons.mp hs with rfl | hs
    · exact hpart.mono htaken
    obtain ⟨a, ha, hs⟩ := List.mem_flatMap.mp hs
    obtain ⟨object, hobject, hentries⟩ := hattributes a (Option.mem_toList.mp ha)
    exact (hentries.2 s hs).mono (hobject.trans (hbehind.trans htaken))
  · obtain ⟨object, hobject, hentries⟩ := hattributes a ha
    refine ⟨(hentries.1.part.mono (hobject.trans hbehind)).within htakes hinOrder, ?_,
      fun s hs => (hentries.2 s hs).within hentries.1
        (hinOrder.mono (hobject.trans hbehind))⟩
    rw [List.append_assoc] at hinOrder
    exact hspecifier.stop_le_start (hentries.1.part.mono hobject) hinOrder.of_append

theorem call?_spans {paren : Token} {c : ImportCall} (h : call? t.span.start before ts = some c)
    (hts : InOrder (before.reverse ++ t :: paren :: ts)) :
    (∀ s ∈ (ImportNode.call c).spans, TakesUpPart s (before.reverse ++ t :: paren :: ts)) ∧
      (ImportNode.call c).Nested := by
  obtain ⟨argument, behind, z, rest, rfl, hspan, hargument, hoptions⟩ := exists_parts_of_call? h
  have hbinding : c.binding = callBinding? c.span before := by
    obtain ⟨-, -, -, -, -, -, -, hbinding⟩ := exists_readExpr?_of_call? h
    exact hbinding
  have htakes : TakesUp c.span (t :: (paren :: (argument ++ behind) ++ [z])) := by
    rw [hspan]
    exact .concat t z (paren :: (argument ++ behind))
  have htaken : t :: (paren :: (argument ++ behind) ++ [z]) <:+:
      before.reverse ++ t :: paren :: (argument ++ (behind ++ z :: rest)) :=
    ⟨before.reverse, rest, by simp⟩
  have hin : argument ++ behind <:+: t :: (paren :: (argument ++ behind) ++ [z]) :=
    ⟨[t, paren], [z], by simp⟩
  have hfirst : argument <:+: argument ++ behind := (List.prefix_append argument behind).isInfix
  have hbehind : behind <:+: argument ++ behind := (List.suffix_append argument behind).isInfix
  have hinOrder := hts.mono htaken
  have hbefore : before.reverse ++ (t :: (paren :: (argument ++ behind) ++ [z])) <:+:
      before.reverse ++ t :: paren :: (argument ++ (behind ++ z :: rest)) :=
    ⟨[], rest, by simp⟩
  have hinitialiser : ∀ b ∈ c.binding,
      TakesUpPart b.initialiser
          (before.reverse ++ (t :: (paren :: (argument ++ behind) ++ [z]))) ∧
        c.span.Within b.initialiser ∧ b.initialiser.stop = c.span.stop :=
    fun b hb => initialiser_takesUpPart (hbinding ▸ hb) htakes (hts.mono hbefore)
  refine ⟨fun s hs => ?_, ?_, ?_, fun o ho => ?_, fun b hb => (hinitialiser b hb).2⟩
  · rcases List.mem_cons.mp hs with rfl | hs
    · exact htakes.part.mono htaken
    rcases List.mem_append.mp hs with hs | hs
    · exact (hargument.2 s hs).mono (hfirst.trans (hin.trans htaken))
    rcases List.mem_append.mp hs with hs | hs
    · obtain ⟨o, ho, hs⟩ := List.mem_flatMap.mp hs
      obtain ⟨object, hobject, hproperties⟩ := hoptions o (Option.mem_toList.mp ho)
      exact (hproperties.2 s hs).mono (hobject.trans (hbehind.trans (hin.trans htaken)))
    · obtain ⟨b, hb, rfl⟩ := List.mem_map.mp hs
      exact (hinitialiser b (Option.mem_toList.mp hb)).1.mono hbefore
  · exact (hargument.1.part.mono (hfirst.trans hin)).within htakes hinOrder
  · exact fun s hs => (hargument.2 s hs).within hargument.1 (hinOrder.mono (hfirst.trans hin))
  · obtain ⟨object, hobject, hproperties⟩ := hoptions o ho
    have hobject' := hobject.trans (hbehind.trans hin)
    exact ⟨(hproperties.1.part.mono hobject').within htakes hinOrder,
      hargument.1.stop_le_start (hproperties.1.part.mono hobject) (hinOrder.mono hin),
      fun s hs => (hproperties.2 s hs).within hproperties.1 (hinOrder.mono hobject')⟩

/-- All spans of a node are those of tokens, and its parts are in it. -/
theorem importNodeAt?_spans {n : ImportNode} (h : importNodeAt? before t ts = some n)
    (hts : InOrder (before.reverse ++ t :: ts)) :
    (∀ s ∈ n.spans, TakesUpPart s (before.reverse ++ t :: ts)) ∧ n.Nested := by
  obtain ⟨hword, -, ⟨paren, rest, c, rfl, -, hc, rfl⟩ | ⟨d, -, hd, rfl⟩⟩ :=
    importNodeAt?_cases h
  · exact call?_spans hc hts
  · obtain ⟨hspans, hnested⟩ := declaration?_spans hword hd hts.of_append
    exact ⟨fun s hs => (hspans s hs).mono (List.suffix_append _ _).isInfix, hnested⟩

end Node

/-- The node starts at the word `import`, its spans are parts of the text, and its parts are in
it. -/
structure ImportNode.WellPlaced (code : String) (n : ImportNode) : Prop where
  word : ∃ t ∈ tokenize code, t.kind = .ident "import" ∧ t.span.start = n.span.start
  parts : ∀ s ∈ n.spans, s.IsPartOf code.toList
  nested : n.Nested

/-- Of any text the nodes are found, in the order in which they start, and each is well placed:
no slice of the text by a span of a node fails. -/
theorem wellPlaced_importNodes (code : String) :
    tokenizeBytes code = some (tokenize code) ∧
      (importNodes code).Pairwise (fun m n => m.span.start < n.span.start) ∧
      ∀ n ∈ importNodes code, n.WellPlaced code := by
  refine ⟨tokenizeBytes_eq code, pairwise_importNodes code, fun n hn => ?_⟩
  obtain ⟨front, t, back, htokens, hread⟩ := exists_split_of_mem_importNodesFrom hn
  rw [List.append_nil] at hread
  obtain ⟨hword, -, -⟩ := importNodeAt?_cases hread
  have hinOrder := inOrder_tokenize code
  rw [htokens] at hinOrder
  obtain ⟨hspans, hnested⟩ := importNodeAt?_spans hread (by simpa using hinOrder)
  refine ⟨⟨t, by simp [htokens], hword, (start_of_importNodeAt? hread).symm⟩, fun s hs => ?_,
    hnested⟩
  refine TakesUpPart.isPartOf ?_
  rw [htokens]
  simpa using hspans s hs

end Script
end StyleBundler
