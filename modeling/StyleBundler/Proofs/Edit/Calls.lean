import StyleBundler.Proofs.Edit
import StyleBundler.Proofs.Edit.Splice

/-!
What a series of calls makes of a source: nothing without a call, an error that names the first
edit refused in the order of the edits, or else the source with its edits spliced in behind the
texts in front. The order of the calls matters as far as texts in front and insertions at one
offset go. Two replacements that start at one offset never apply together, but which of the two
the error names is the order in which they were called.
-/

namespace StyleBundler

/-- One change asked for. -/
inductive EditCall where
  | overwrite (span : Span) (replacement : String)
  | remove (span : Span)
  | prepend (text : String)
deriving DecidableEq, Repr

namespace EditCall

def run (s : Edits) : EditCall → Edits
  | .overwrite span replacement => s.overwrite span replacement
  | .remove span => s.remove span
  | .prepend text => s.prepend text

def edit? : EditCall → Option Edit
  | .overwrite span replacement => some ⟨span, replacement⟩
  | .remove span => some ⟨span, ""⟩
  | .prepend _ => none

def front? : EditCall → Option String
  | .prepend text => some text
  | _ => none

def edits (calls : List EditCall) : List Edit := calls.filterMap edit?

def fronts (calls : List EditCall) : List String := calls.filterMap front?

/-- The same calls, where texts in front and insertions at one offset keep their order. -/
structure Reordering (calls calls' : List EditCall) : Prop where
  perm : calls.Perm calls'
  fronts : fronts calls = fronts calls'
  insertions : ∀ n, (edits calls).filter (·.span = ⟨n, n⟩) =
    (edits calls').filter (·.span = ⟨n, n⟩)

/-- Insertions that all keep their order do so at each offset. -/
theorem Reordering.of_filter_isEmpty {calls calls' : List EditCall} (hperm : calls.Perm calls')
    (hfronts : EditCall.fronts calls = EditCall.fronts calls')
    (h : (edits calls).filter (·.span.isEmpty) = (edits calls').filter (·.span.isEmpty)) :
    Reordering calls calls' := by
  refine ⟨hperm, hfronts, ?_⟩
  intro n
  have hfilter : ∀ es : List Edit, es.filter (·.span = ⟨n, n⟩) =
      (es.filter (·.span.isEmpty)).filter (·.span = ⟨n, n⟩) := by
    intro es
    rw [List.filter_filter]
    refine List.filter_congr ?_
    intro e _
    by_cases he : e.span = ⟨n, n⟩ <;> simp [he, Span.isEmpty]
  rw [hfilter, h, ← hfilter]

theorem Reordering.edits_perm {calls calls' : List EditCall} (h : Reordering calls calls') :
    (edits calls).Perm (edits calls') := h.perm.filterMap edit?

end EditCall

namespace Edits

open Text

/-- What a series of calls collects. -/
def ofCalls (calls : List EditCall) : Edits := calls.foldl EditCall.run .empty

theorem foldl_run (calls : List EditCall) (s : Edits) :
    calls.foldl EditCall.run s =
      ⟨s.edits ++ EditCall.edits calls, (EditCall.fronts calls).reverse ++ s.front⟩ := by
  induction calls generalizing s with
  | nil => simp [EditCall.edits, EditCall.fronts]
  | cons c calls ih =>
      rw [List.foldl_cons, ih]
      cases c <;>
        simp [EditCall.edits, EditCall.fronts, List.filterMap_cons, EditCall.run, EditCall.edit?,
          EditCall.front?, overwrite, remove, prepend]

@[simp] theorem edits_ofCalls (calls : List EditCall) :
    (ofCalls calls).edits = EditCall.edits calls := by
  simp [ofCalls, foldl_run, empty]

@[simp] theorem front_ofCalls (calls : List EditCall) :
    (ofCalls calls).front = (EditCall.fronts calls).reverse := by
  simp [ofCalls, foldl_run, empty]

theorem isEmpty_ofCalls (calls : List EditCall) :
    (ofCalls calls).isEmpty = true ↔ calls = [] := by
  rw [isEmpty, Bool.and_eq_true, edits_ofCalls, front_ofCalls, EditCall.edits, EditCall.fronts]
  cases calls with
  | nil => simp
  | cons c calls => cases c <;> simp [EditCall.edit?, EditCall.front?]

/-- Which outcome the calls have, with the order of the edits sorted out. -/
theorem apply_eq (s : Edits) (source : List Char) :
    s.apply source =
      if s.isEmpty then .ok none
      else match firstError? 0 source 0 (ordered s.edits) with
        | some err => .error err
        | none => .ok (some ⟨(String.join s.front).toList, patches 0 source (ordered s.edits)⟩) :=
  rfl

theorem isEmpty_of_edits_eq_nil {s : Edits} {source : List Char}
    (h : ∃ err, firstError? 0 source 0 (ordered s.edits) = some err) : s.isEmpty = false := by
  obtain ⟨err, h⟩ := h
  cases hedits : s.edits with
  | nil => simp [hedits, ordered, firstError?] at h
  | cons e es => simp [isEmpty, hedits]

/-- An error comes from the check alone. -/
theorem apply_eq_error_iff {s : Edits} {source : List Char} {err : EditError} :
    s.apply source = .error err ↔ firstError? 0 source 0 (ordered s.edits) = some err := by
  rw [apply_eq]
  constructor
  · intro h
    split at h
    · cases h
    · split at h
      · next hcheck =>
          cases h
          exact hcheck
      · cases h
  · intro h
    rw [isEmpty_of_edits_eq_nil ⟨err, h⟩, h]
    rfl

section Refusal

variable {source : List Char} {order order' front front' back back' : List Edit} {e e' : Edit}

/-- The check passes valid edits, and names the first refused of the others. -/
theorem firstError?_ordered (source : List Char) (es : List Edit) :
    match firstError? 0 source 0 (ordered es) with
    | none => Valid source (ordered es)
    | some err => ∃ front e back, ordered es = front ++ e :: back ∧ Valid source front ∧
        e.offence? source front = some err :=
  firstError?_spec (.start (pairwise_ordered es))

theorem Valid.not_append_cons (hoffence : e.offence? source front ≠ none) :
    ¬Valid source (front ++ e :: back) := by
  intro h
  have hsub : (front ++ [e]).Sublist (front ++ e :: back) := by simp
  exact hoffence (Valid.append_singleton_iff.mp (h.sublist hsub)).2

/-- There is one first refused edit. -/
theorem first_offence_unique (h : front ++ e :: back = front' ++ e' :: back')
    (hfront : Valid source front) (hfront' : Valid source front')
    (hoffence : e.offence? source front ≠ none) (hoffence' : e'.offence? source front' ≠ none) :
    front = front' ∧ e = e' := by
  rcases List.append_eq_append_iff.mp h with ⟨between, rfl, hrest⟩ | ⟨between, rfl, hrest⟩
  · cases between with
    | nil =>
        rw [List.nil_append] at hrest
        exact ⟨(List.append_nil front).symm, (List.cons.inj hrest).1⟩
    | cons d between =>
        obtain ⟨rfl, -⟩ := List.cons.inj hrest
        exact absurd hfront' (Valid.not_append_cons hoffence)
  · cases between with
    | nil =>
        rw [List.nil_append] at hrest
        exact ⟨List.append_nil front', (List.cons.inj hrest).1.symm⟩
    | cons d between =>
        obtain ⟨rfl, -⟩ := List.cons.inj hrest
        exact absurd hfront (Valid.not_append_cons hoffence')

/-- The first refused edit of one order comes no later than that of another order. -/
theorem precedes_of_first_offence
    (hsorted : (front ++ e :: back).Pairwise fun a b => a.precedes b = true)
    (hsorted' : (front' ++ e' :: back').Pairwise fun a b => a.precedes b = true)
    (hperm : (front ++ e :: back).Perm (front' ++ e' :: back'))
    (hoffence : e.offence? source front ≠ none) (hfront' : Valid source front') :
    e'.precedes e = true := by
  by_contra hlater
  have hself : e.precedes e = true := by simpa using Edit.precedes_total e e
  -- All that comes up to `e` in the one order comes before `e'` in the other.
  have hup : (front ++ [e]).Sublist ((front ++ e :: back).filter (·.precedes e)) := by
    have hfilter : (front ++ [e]).filter (·.precedes e) = front ++ [e] := by
      rw [List.filter_eq_self]
      intro d hd
      rcases List.mem_append.mp hd with hd | hd
      · exact (List.pairwise_append.mp hsorted).2.2 d hd e List.mem_cons_self
      · rw [List.mem_singleton.mp hd]
        exact hself
    have hsub : (front ++ [e]).Sublist (front ++ e :: back) := by simp
    exact hfilter ▸ hsub.filter _
  have hbefore : (front' ++ e' :: back').filter (·.precedes e) = front'.filter (·.precedes e) := by
    rw [List.filter_append, List.append_right_eq_self, List.filter_eq_nil_iff]
    intro d hd hprecedes
    rcases List.mem_cons.mp hd with rfl | hd
    · exact hlater hprecedes
    · have hd := List.rel_of_pairwise_cons (List.pairwise_append.mp hsorted').2.1 hd
      exact hlater (Edit.precedes_trans hd hprecedes)
  have hsubperm : (front ++ [e]).Subperm front' :=
    (hup.subperm.trans (hbefore ▸ (hperm.filter _).subperm)).trans List.filter_sublist.subperm
  exact hoffence (Valid.append_singleton_iff.mp (hfront'.subperm hsubperm)).2

/-- Two orders of the same edits refuse peers first. -/
theorem isPeer_of_first_offence
    (hsorted : (front ++ e :: back).Pairwise fun a b => a.precedes b = true)
    (hsorted' : (front' ++ e' :: back').Pairwise fun a b => a.precedes b = true)
    (hperm : (front ++ e :: back).Perm (front' ++ e' :: back'))
    (hfront : Valid source front) (hfront' : Valid source front')
    (hoffence : e.offence? source front ≠ none) (hoffence' : e'.offence? source front' ≠ none) :
    e.isPeer e' = true :=
  Edit.isPeer_iff.mpr
    ⟨precedes_of_first_offence hsorted' hsorted hperm.symm hoffence' hfront,
      precedes_of_first_offence hsorted hsorted' hperm hoffence hfront'⟩

end Refusal

/-- Valid edits that start at one offset and are no insertions are at most one. -/
theorem Valid.length_filter_isPeer_le {source : List Char} {es : List Edit}
    (h : Valid source es) {e : Edit} (he : e.span.isEmpty = false) :
    (es.filter e.isPeer).length ≤ 1 := by
  have happart := h.2.sublist (List.filter_sublist (p := e.isPeer))
  match hpeers : es.filter e.isPeer with
  | [] | [_] => simp
  | d :: d' :: _ =>
      rw [hpeers] at happart
      have hd : d ∈ es.filter e.isPeer := by simp [hpeers]
      have hd' : d' ∈ es.filter e.isPeer := by simp [hpeers]
      obtain ⟨hmem, hpeer⟩ := List.mem_filter.mp hd
      obtain ⟨hmem', hpeer'⟩ := List.mem_filter.mp hd'
      have hcompatible : d.Compatible d' := List.rel_of_pairwise_cons happart List.mem_cons_self
      have hle := (h.1 d hmem).2.1
      have hle' := (h.1 d' hmem').2.1
      rw [Edit.isPeer_iff_start_eq he] at hpeer hpeer'
      simp only [Edit.Compatible] at hcompatible
      omega

/-- Valid edits apply in one order, however the calls came. -/
theorem ordered_eq_of_reordering {source : List Char} {calls calls' : List EditCall}
    (h : EditCall.Reordering calls calls') (hvalid : Valid source (EditCall.edits calls)) :
    ordered (EditCall.edits calls) = ordered (EditCall.edits calls') := by
  refine ordered_congr h.edits_perm ?_
  intro e
  cases he : e.span.isEmpty with
  | true =>
      have hpeer : e.isPeer = fun d : Edit => decide (d.span = ⟨e.span.start, e.span.start⟩) := by
        funext d
        rw [Bool.eq_iff_iff, Edit.isPeer_iff_span_eq he, decide_eq_true_iff]
      rw [hpeer]
      exact h.insertions e.span.start
  | false =>
      have hle := hvalid.length_filter_isPeer_le he
      have hfilter := h.edits_perm.filter e.isPeer
      match hpeers : (EditCall.edits calls).filter e.isPeer with
      | [] =>
          rw [hpeers] at hfilter
          exact hfilter.nil_eq
      | [d] =>
          rw [hpeers] at hfilter
          exact hfilter.singleton_eq
      | d :: d' :: _ =>
          rw [hpeers] at hle
          simp at hle

section Outcome

variable {s : Edits} {source : List Char}

theorem apply_eq_none_iff : s.apply source = .ok none ↔ s.isEmpty = true := by
  rw [apply_eq]
  constructor
  · intro h
    split at h
    · assumption
    · split at h <;> cases h
  · intro h
    rw [h]
    rfl

/-- The error names the first edit, in their order, that is refused behind those in front. -/
theorem apply_eq_error_iff_first {err : EditError} :
    s.apply source = .error err ↔
      ∃ front e back, ordered s.edits = front ++ e :: back ∧ Valid source front ∧
        e.offence? source front = some err := by
  rw [apply_eq_error_iff]
  have hspec := firstError?_ordered source s.edits
  constructor
  · intro h
    rwa [h] at hspec
  · rintro ⟨front, e, back, horder, hfront, hoffence⟩
    have hrefused : e.offence? source front ≠ none := by simp [hoffence]
    cases hcheck : firstError? 0 source 0 (ordered s.edits) with
    | none =>
        rw [hcheck, horder] at hspec
        exact absurd hspec (Valid.not_append_cons hrefused)
    | some err' =>
        rw [hcheck] at hspec
        obtain ⟨front', e', back', horder', hfront', hoffence'⟩ := hspec
        obtain ⟨rfl, rfl⟩ := first_offence_unique (horder.symm.trans horder') hfront hfront'
          hrefused (by simp [hoffence'])
        rw [← hoffence', hoffence]

theorem exists_error_iff :
    (∃ err, s.apply source = .error err) ↔ ¬Valid source s.edits := by
  simp only [apply_eq_error_iff]
  have hspec := firstError?_ordered source s.edits
  have hperm := ordered_perm s.edits
  cases hcheck : firstError? 0 source 0 (ordered s.edits) with
  | none =>
      rw [hcheck] at hspec
      simp [hspec.perm hperm]
  | some err =>
      rw [hcheck] at hspec
      obtain ⟨front, e, back, horder, -, hoffence⟩ := hspec
      simp only [Option.some.injEq, exists_eq', true_iff]
      intro hvalid
      exact Valid.not_append_cons (by simp [hoffence]) (horder ▸ hvalid.perm hperm.symm)

theorem apply_of_valid (hcalled : s.isEmpty = false) (h : Valid source s.edits) :
    s.apply source =
      .ok (some ⟨(String.join s.front).toList, patches 0 source (ordered s.edits)⟩) := by
  have hcheck : firstError? 0 source 0 (ordered s.edits) = none := by
    rw [Option.eq_none_iff_forall_ne_some]
    intro err herr
    exact exists_error_iff.mp ⟨err, apply_eq_error_iff.mpr herr⟩ h
  rw [apply_eq, hcheck, hcalled]
  rfl

/-- Edits that apply are valid, and the code is what splicing them in gives. -/
theorem exists_splice_of_apply {r : EditedText} (h : s.apply source = .ok (some r)) :
    Valid source s.edits ∧ ∃ body, spliceEach source (ordered s.edits) = some body ∧
      r.code = (String.join s.front).toList ++ body := by
  have hvalid : Valid source s.edits := by
    by_contra hinvalid
    obtain ⟨err, herr⟩ := exists_error_iff.mpr hinvalid
    cases h.symm.trans herr
  obtain ⟨-, rfl⟩ := apply_eq_some h
  exact ⟨hvalid, _, spliceEach_eq_patches (hvalid.perm (ordered_perm _).symm) (pairwise_ordered _),
    rfl⟩

end Outcome

/-- Reordered calls have one outcome, but for two errors that name replacements at one offset. -/
theorem apply_reordering {calls calls' : List EditCall} (h : EditCall.Reordering calls calls')
    (source : List Char) :
    (ofCalls calls').apply source = (ofCalls calls).apply source ∨
      ∃ e ∈ EditCall.edits calls, ∃ e' ∈ EditCall.edits calls, ∃ err err',
        e.span.start = e'.span.start ∧ e.span.isEmpty = false ∧ e'.span.isEmpty = false ∧
        (ofCalls calls).apply source = .error err ∧ err.span = e.span ∧
        (ofCalls calls').apply source = .error err' ∧ err'.span = e'.span := by
  have hempty : (ofCalls calls').isEmpty = (ofCalls calls).isEmpty := by
    rw [Bool.eq_iff_iff, isEmpty_ofCalls, isEmpty_ofCalls]
    exact ⟨fun h' => by simpa [h'] using h.perm, fun h' => by simpa [h'] using h.perm⟩
  have hperm : (EditCall.edits calls').Perm (EditCall.edits calls) := h.edits_perm.symm
  by_cases hvalid : Valid source (EditCall.edits calls)
  · left
    rw [apply_eq, apply_eq, hempty, edits_ofCalls, edits_ofCalls,
      ordered_eq_of_reordering h hvalid, front_ofCalls, front_ofCalls, h.fronts]
  · have hvalid' : ¬Valid source (EditCall.edits calls') := fun h' => hvalid (h'.perm hperm)
    rw [← edits_ofCalls] at hvalid hvalid'
    obtain ⟨err, herr⟩ := exists_error_iff.mpr hvalid
    obtain ⟨err', herr'⟩ := exists_error_iff.mpr hvalid'
    obtain ⟨front, e, back, horder, hfront, hoffence⟩ := apply_eq_error_iff_first.mp herr
    obtain ⟨front', e', back', horder', hfront', hoffence'⟩ := apply_eq_error_iff_first.mp herr'
    rw [edits_ofCalls] at horder horder'
    have hsorted := horder ▸ pairwise_ordered (EditCall.edits calls)
    have hsorted' := horder' ▸ pairwise_ordered (EditCall.edits calls')
    have horders : (front ++ e :: back).Perm (front' ++ e' :: back') := by
      rw [← horder, ← horder']
      exact (ordered_perm _).trans (hperm.symm.trans (ordered_perm _).symm)
    have hpeer : e.isPeer e' = true :=
      isPeer_of_first_offence hsorted hsorted' horders hfront hfront' (by simp [hoffence])
        (by simp [hoffence'])
    cases he : e.span.isEmpty with
    | true =>
        left
        have hspan : e'.span = e.span := by
          rw [(Edit.isPeer_iff_span_eq he).mp hpeer]
          rw [Span.isEmpty, beq_iff_eq] at he
          exact congrArg (Span.mk e.span.start) he
        have hfits : e'.IsValid source ↔ e.IsValid source := by simp only [Edit.IsValid, hspan]
        rw [herr, herr', Edit.offence?_eq_some hoffence, Edit.offence?_eq_some hoffence']
        simp only [hfits, hspan]
    | false =>
        right
        have hmem : e ∈ EditCall.edits calls := by
          rw [← (ordered_perm _).mem_iff, horder]
          simp
        have hmem' : e' ∈ EditCall.edits calls := by
          rw [← hperm.mem_iff, ← (ordered_perm _).mem_iff, horder']
          simp
        have hstart := (Edit.isPeer_iff_start_eq he).mp hpeer
        refine ⟨e, hmem, e', hmem', err, err', hstart.1.symm, he, ?_, herr, ?_, herr', ?_⟩
        · rw [Span.isEmpty, beq_eq_false_iff_ne]
          exact hstart.2
        · exact Edit.span_of_offence? hoffence
        · exact Edit.span_of_offence? hoffence'

/-- The outcome of calls. It is nothing just when there was no call, and an error just when an
edit does not fit or two do not keep apart. In the order by offset, insertions first and peers as
called, the error names the first edit that does not fit or does not keep apart from those in
front. Otherwise the code is the texts in front, the latest first, and behind them the source with
the edits spliced in, the last one first. Reordered calls have the same outcome, but for errors
that name replacements which start at one offset. -/
theorem apply_ofCalls (calls : List EditCall) (source : List Char) :
    ((ofCalls calls).apply source = .ok none ↔ calls = []) ∧
      ((∃ err, (ofCalls calls).apply source = .error err) ↔
        (∃ e ∈ EditCall.edits calls, ¬e.IsValid source) ∨
          ¬(EditCall.edits calls).Pairwise Edit.Compatible) ∧
      ((ordered (EditCall.edits calls)).Perm (EditCall.edits calls) ∧
        (ordered (EditCall.edits calls)).Pairwise (fun d e => d.precedes e = true) ∧
        ∀ e : Edit, (ordered (EditCall.edits calls)).filter e.isPeer =
          (EditCall.edits calls).filter e.isPeer) ∧
      (∀ err, (ofCalls calls).apply source = .error err ↔
        ∃ front e back, ordered (EditCall.edits calls) = front ++ e :: back ∧
          Valid source front ∧ e.offence? source front = some err) ∧
      (calls ≠ [] → Valid source (EditCall.edits calls) →
        ∃ r body, (ofCalls calls).apply source = .ok (some r) ∧
          spliceEach source (ordered (EditCall.edits calls)) = some body ∧
          r.code = (String.join (EditCall.fronts calls).reverse).toList ++ body) ∧
      ∀ calls', EditCall.Reordering calls calls' →
        (ofCalls calls').apply source = (ofCalls calls).apply source ∨
          ∃ e ∈ EditCall.edits calls, ∃ e' ∈ EditCall.edits calls, ∃ err err',
            e.span.start = e'.span.start ∧ e.span.isEmpty = false ∧ e'.span.isEmpty = false ∧
            (ofCalls calls).apply source = .error err ∧ err.span = e.span ∧
            (ofCalls calls').apply source = .error err' ∧ err'.span = e'.span := by
  refine ⟨?none, ?error, ⟨?perm, ?sorted, ?stable⟩, ?first, ?code, ?reordered⟩
  case none => exact apply_eq_none_iff.trans (isEmpty_ofCalls calls)
  case error =>
    rw [exists_error_iff, edits_ofCalls, Valid, not_and_or]
    simp
  case perm => exact ordered_perm _
  case sorted => exact pairwise_ordered _
  case stable => exact filter_ordered _
  case first =>
    intro err
    rw [apply_eq_error_iff_first, edits_ofCalls]
  case code =>
    intro hcalled hvalid
    have hcalled : (ofCalls calls).isEmpty = false := by
      rwa [← Bool.not_eq_true, isEmpty_ofCalls]
    rw [← edits_ofCalls] at hvalid
    have happly := apply_of_valid hcalled hvalid
    rw [edits_ofCalls] at hvalid happly
    refine ⟨_, _, happly, spliceEach_eq_patches ?_ (pairwise_ordered _), ?_⟩
    · exact hvalid.perm (ordered_perm _).symm
    · rw [EditedText.code, front_ofCalls]
  case reordered => exact fun calls' h => apply_reordering h source

theorem apply_ofCalls_touching :
    let calls : List EditCall := [.prepend "P", .overwrite ⟨0, 1⟩ "x", .overwrite ⟨1, 1⟩ "i",
      .overwrite ⟨1, 1⟩ "j", .remove ⟨1, 3⟩, .prepend "Q"]
    let calls' : List EditCall := [.remove ⟨1, 3⟩, .prepend "P", .overwrite ⟨1, 1⟩ "i",
      .prepend "Q", .overwrite ⟨1, 1⟩ "j", .overwrite ⟨0, 1⟩ "x"]
    let source := ['a', 'é', 'b']
    calls ≠ [] ∧ Valid source (EditCall.edits calls) ∧ EditCall.Reordering calls calls' ∧
      ∃ r, (ofCalls calls).apply source = .ok (some r) ∧
        (ofCalls calls').apply source = .ok (some r) ∧
        r.code = ['Q', 'P', 'x', 'i', 'j', 'b'] := by
  intro calls calls' source
  have hvalid : Valid source (EditCall.edits calls) := by decide
  have hreordering : EditCall.Reordering calls calls' :=
    .of_filter_isEmpty (by decide) (by decide) (by decide)
  obtain ⟨-, -, -, -, hcode, hreordered⟩ := apply_ofCalls calls source
  obtain ⟨r, body, happly, hbody, hr⟩ := hcode (List.cons_ne_nil _ _) hvalid
  have horder : ordered (EditCall.edits calls) = EditCall.edits calls :=
    List.mergeSort_of_pairwise (by decide)
  have hspliced : spliceEach source (EditCall.edits calls) = some ['x', 'i', 'j', 'b'] := by
    decide
  rw [horder, hspliced] at hbody
  cases hbody
  have hfronts : (String.join (EditCall.fronts calls).reverse).toList = ['Q', 'P'] := by
    decide +kernel
  rw [hfronts] at hr
  refine ⟨List.cons_ne_nil _ _, hvalid, hreordering, r, happly, ?_, hr⟩
  rcases hreordered calls' hreordering with h | ⟨_, _, _, _, _, _, _, _, _, herr, _⟩
  · rw [h, happly]
  · rw [happly] at herr
    cases herr

/-- Which of two replacements at one offset the error names is the order of the calls. -/
theorem apply_reordering_names_other :
    let calls : List EditCall := [.overwrite ⟨0, 5⟩ "x", .overwrite ⟨0, 8⟩ "y"]
    let calls' : List EditCall := [.overwrite ⟨0, 8⟩ "y", .overwrite ⟨0, 5⟩ "x"]
    let source := ['0', '1', '2', '3', '4', '5', '6', '7', '8', '9']
    EditCall.Reordering calls calls' ∧
      (ofCalls calls).apply source = .error (.overlapping ⟨0, 8⟩) ∧
      (ofCalls calls').apply source = .error (.overlapping ⟨0, 5⟩) := by
  intro calls calls' source
  have horder : ordered (EditCall.edits calls) = EditCall.edits calls :=
    List.mergeSort_of_pairwise (by decide)
  have horder' : ordered (EditCall.edits calls') = EditCall.edits calls' :=
    List.mergeSort_of_pairwise (by decide)
  refine ⟨.of_filter_isEmpty (by decide) (by decide) (by decide), ?_, ?_⟩
  · rw [apply_eq_error_iff, edits_ofCalls, horder]
    decide
  · rw [apply_eq_error_iff, edits_ofCalls, horder']
    decide

end Edits
end StyleBundler
