import StyleBundler.Proofs.Text.Cut
import StyleBundler.Proofs.Edit.Order

/-!
Which edits of a source apply together. Each must fit the source, and any two must keep apart
(`Edits.Valid`). The check compares an edit only with the end of the one in front of it; in the
order in which edits apply that is as good as comparing all pairs (`Checked.step`), and the edit it
refuses is the first one that does not fit or does not keep apart from the edits in front
(`firstError?_spec`).
-/

namespace StyleBundler

open Text

/-- The edit that an error names. -/
def EditError.span : EditError → Span
  | .overlapping s => s
  | .outOfBounds s => s

namespace Edit

/-- The ends of the edit are boundaries of characters of the source, in order. -/
def IsValid (source : List Char) (e : Edit) : Prop :=
  e.span.stop ≤ byteLength source ∧ e.span.start ≤ e.span.stop ∧
    IsBoundary source e.span.start ∧ IsBoundary source e.span.stop

/-- One of the two ends before the other one starts, or where it starts. -/
def Compatible (d e : Edit) : Prop :=
  d.span.stop ≤ e.span.start ∨ e.span.stop ≤ d.span.start

instance (d e : Edit) : Decidable (d.Compatible e) :=
  inferInstanceAs (Decidable (_ ∨ _))

theorem Compatible.symm {d e : Edit} (h : d.Compatible e) : e.Compatible d := Or.symm h

theorem isValid_iff_fits {source : List Char} {e : Edit} :
    e.IsValid source ↔ e.fits source = true := by
  rw [fits, isSome_slice?_iff]
  constructor
  · rintro ⟨-, hle, hstart, hstop⟩
    exact ⟨hle, hstart, hstop⟩
  · rintro ⟨hle, hstart, a, b, rfl, hstop⟩
    refine ⟨?_, hle, hstart, a, b, rfl, hstop⟩
    rw [byteLength_append]
    omega

instance (source : List Char) (e : Edit) : Decidable (e.IsValid source) :=
  decidable_of_iff _ isValid_iff_fits.symm

theorem isValid_iff_place? {a rest : List Char} {e : Edit}
    (h : byteLength a ≤ e.span.start) :
    e.IsValid (a ++ rest) ↔ (e.place? (byteLength a) rest).isSome = true := by
  rw [isValid_iff_fits, isSome_place? a rest h]

/-- The place of an edit splits what is left of the source. -/
theorem exists_kept_of_place? {cursor : Nat} {rest tail : List Char} {e : Edit}
    (h : e.place? cursor rest = some tail) :
    ∃ kept, rest = kept ++ tail ∧ byteLength kept = e.span.start - cursor := by
  unfold place? at h
  split at h
  · simp only [Option.bind_eq_bind, Option.bind_eq_some_iff, Prod.exists,
      Option.some.injEq] at h
    obtain ⟨kept, _, hcut, _, _, -, rfl⟩ := h
    exact ⟨kept, cut?_eq_some_iff.mp hcut⟩
  · cases h

/-- Among edits in their order, keeping apart means that the first ends before the second. -/
theorem compatible_iff_of_precedes {source : List Char} {d e : Edit}
    (h : d.precedes e = true) (hd : d.IsValid source) (he : e.IsValid source) :
    d.Compatible e ↔ d.span.stop ≤ e.span.start := by
  obtain ⟨-, hd, -⟩ := hd
  obtain ⟨-, he, -⟩ := he
  simp only [precedes, Span.isEmpty, Bool.or_eq_true, Bool.and_eq_true, decide_eq_true_eq,
    beq_iff_eq, Bool.not_eq_true', beq_eq_false_iff_ne] at h
  simp only [Compatible]
  omega

/-- Why an edit is refused behind others: it does not fit, or one of them overlaps it. -/
def offence? (source : List Char) (front : List Edit) (e : Edit) : Option EditError :=
  if ¬e.IsValid source then some (.outOfBounds e.span)
  else if ∃ d ∈ front, ¬d.Compatible e then some (.overlapping e.span)
  else none

theorem offence?_eq_none_iff {source : List Char} {front : List Edit} {e : Edit} :
    e.offence? source front = none ↔
      e.IsValid source ∧ ∀ d ∈ front, d.Compatible e := by
  simp only [offence?]
  split
  · next h => simp [h]
  · next h =>
      split
      · next hfront =>
          obtain ⟨d, hd, hincompatible⟩ := hfront
          simp only [reduceCtorEq, false_iff]
          exact fun h => hincompatible (h.2 d hd)
      · next hfront => simpa using ⟨not_not.mp h, by simpa using hfront⟩

/-- The error names the edit, and says whether it fits. -/
theorem offence?_eq_some {source : List Char} {front : List Edit} {e : Edit} {err : EditError}
    (h : e.offence? source front = some err) :
    err = if e.IsValid source then .overlapping e.span else .outOfBounds e.span := by
  unfold offence? at h
  split at h
  · next he =>
      cases h
      rw [if_neg he]
  · next he =>
      rw [not_not] at he
      split at h
      · cases h
        rw [if_pos he]
      · cases h

theorem span_of_offence? {source : List Char} {front : List Edit} {e : Edit} {err : EditError}
    (h : e.offence? source front = some err) : err.span = e.span := by
  rw [offence?_eq_some h]
  split <;> rfl

end Edit

namespace Edits

/-- Each edit fits the source, and any two keep apart. -/
def Valid (source : List Char) (es : List Edit) : Prop :=
  (∀ e ∈ es, e.IsValid source) ∧ es.Pairwise Edit.Compatible

instance (source : List Char) (es : List Edit) : Decidable (Valid source es) :=
  inferInstanceAs (Decidable (_ ∧ _))

namespace Valid

variable {source : List Char} {es es' : List Edit}

theorem nil : Valid source [] := ⟨nofun, .nil⟩

theorem sublist (h : Valid source es') (hsub : es.Sublist es') : Valid source es :=
  ⟨fun e he => h.1 e (hsub.subset he), h.2.sublist hsub⟩

theorem perm (h : Valid source es) (hperm : es.Perm es') : Valid source es' :=
  ⟨fun e he => h.1 e (hperm.mem_iff.mpr he), h.2.perm hperm Edit.Compatible.symm⟩

theorem subperm (h : Valid source es') (hsub : es.Subperm es') : Valid source es := by
  obtain ⟨es'', hperm, hsub⟩ := hsub
  exact (h.sublist hsub).perm hperm

theorem append_singleton_iff {e : Edit} :
    Valid source (es ++ [e]) ↔ Valid source es ∧ e.offence? source es = none := by
  rw [Edit.offence?_eq_none_iff]
  simp only [Valid, List.mem_append, List.mem_singleton, List.pairwise_append,
    List.pairwise_singleton]
  constructor
  · rintro ⟨hfit, hes, -, happart⟩
    exact ⟨⟨fun d hd => hfit d (.inl hd), hes⟩, hfit e (.inr rfl), fun d hd => happart d hd e rfl⟩
  · rintro ⟨⟨hfit, hes⟩, he, happart⟩
    refine ⟨?_, hes, trivial, ?_⟩
    · rintro d (hd | rfl)
      · exact hfit d hd
      · exact he
    · rintro d hd _ rfl
      exact happart d hd

/-- In their order, valid edits come one behind the other. -/
theorem pairwise_stop_le (h : Valid source es)
    (hsorted : es.Pairwise fun a b => a.precedes b = true) :
    es.Pairwise fun a b => a.span.stop ≤ b.span.start := by
  refine (hsorted.and h.2).imp_of_mem ?_
  intro d e hd he hde
  exact (Edit.compatible_iff_of_precedes hde.1 (h.1 d hd) (h.1 e he)).mp hde.2

end Valid

/-- How far the check has come in the text `a ++ rest`: of edits in their order `done` are valid,
and the furthest of these ends at `last`; `es` are to come, none of them in front of `rest`. -/
structure Checked (a rest : List Char) (done es : List Edit) (last : Nat) : Prop where
  sorted : (done ++ es).Pairwise fun d e => d.precedes e = true
  valid : Valid (a ++ rest) done
  behind : ∀ d ∈ done, d.span.stop ≤ last
  reached : last = 0 ∨ ∃ d ∈ done, d.span.stop = last
  cursor : ∀ e ∈ es, byteLength a ≤ e.span.start

namespace Checked

variable {a rest tail : List Char} {done es : List Edit} {e : Edit} {last : Nat}

theorem start {source : List Char} (h : es.Pairwise fun d e => d.precedes e = true) :
    Checked [] source [] es 0 :=
  ⟨h, .nil, nofun, .inl rfl, fun _ _ => Nat.zero_le _⟩

theorem isValid_iff (h : Checked a rest done (e :: es) last) :
    e.IsValid (a ++ rest) ↔ (e.place? (byteLength a) rest).isSome = true :=
  Edit.isValid_iff_place? (h.cursor e List.mem_cons_self)

/-- The edit that ends at `last` does not keep apart from one that starts in front of it. -/
theorem offence?_of_lt (h : Checked a rest done (e :: es) last) (he : e.IsValid (a ++ rest))
    (hlt : e.span.start < last) :
    e.offence? (a ++ rest) done = some (.overlapping e.span) := by
  obtain ⟨d, hd, rfl⟩ := h.reached.resolve_left (Nat.ne_zero_of_lt hlt)
  have hprecedes : d.precedes e = true :=
    (List.pairwise_append.mp h.sorted).2.2 d hd e List.mem_cons_self
  have happart : ¬d.Compatible e := by
    rw [Edit.compatible_iff_of_precedes hprecedes (h.valid.1 d hd) he]
    exact Nat.not_le.mpr hlt
  rw [Edit.offence?, if_neg (not_not.mpr he), if_pos ⟨d, hd, happart⟩]

/-- An edit that fits and does not start in front of `last` is valid with those before it. -/
theorem step (h : Checked a rest done (e :: es) last)
    (hplace : e.place? (byteLength a) rest = some tail) (hle : last ≤ e.span.start) :
    ∃ kept, rest = kept ++ tail ∧ byteLength (a ++ kept) = e.span.start ∧
      Checked (a ++ kept) tail (done ++ [e]) es e.span.stop := by
  have he : e.IsValid (a ++ rest) := h.isValid_iff.mpr (by rw [hplace]; rfl)
  have happart : ∀ d ∈ done, d.Compatible e := fun d hd =>
    .inl (Nat.le_trans (h.behind d hd) hle)
  obtain ⟨kept, rfl, hkept⟩ := Edit.exists_kept_of_place? hplace
  have hcursor : byteLength (a ++ kept) = e.span.start := by
    have hstart := h.cursor e List.mem_cons_self
    rw [byteLength_append]
    omega
  refine ⟨kept, rfl, hcursor, ?_⟩
  refine { sorted := ?sorted, valid := ?valid, behind := ?behind, reached := ?reached,
           cursor := ?cursor }
  case sorted => rw [← List.append_cons]; exact h.sorted
  case valid =>
    rw [List.append_assoc]
    exact Valid.append_singleton_iff.mpr ⟨h.valid, Edit.offence?_eq_none_iff.mpr ⟨he, happart⟩⟩
  case behind =>
    intro d hd
    rcases List.mem_append.mp hd with hd | hd
    · exact Nat.le_trans (h.behind d hd) (Nat.le_trans hle he.2.1)
    · exact Nat.le_of_eq (List.mem_singleton.mp hd ▸ rfl)
  case reached => exact .inr ⟨e, List.mem_append_right _ List.mem_cons_self, rfl⟩
  case cursor =>
    intro d hd
    rw [hcursor]
    exact Edit.start_le_of_precedes
      (List.rel_of_pairwise_cons (List.pairwise_append.mp h.sorted).2.1 hd)

end Checked

/-- The check passes if all edits are valid, and else names the first that is refused. -/
theorem firstError?_spec {a rest : List Char} {done es : List Edit} {last : Nat}
    (h : Checked a rest done es last) :
    match firstError? (byteLength a) rest last es with
    | none => Valid (a ++ rest) (done ++ es)
    | some err => ∃ front e back, done ++ es = front ++ e :: back ∧ Valid (a ++ rest) front ∧
        e.offence? (a ++ rest) front = some err := by
  induction es generalizing a rest done last with
  | nil => simpa [firstError?] using h.valid
  | cons e es ih =>
      have hvalid := h.isValid_iff
      simp only [firstError?]
      cases hplace : e.place? (byteLength a) rest with
      | none =>
          have he : ¬e.IsValid (a ++ rest) := by simp [hvalid, hplace]
          exact ⟨done, e, es, rfl, h.valid, by simp [Edit.offence?, he]⟩
      | some tail =>
          have he : e.IsValid (a ++ rest) := by simp [hvalid, hplace]
          by_cases hlt : e.span.start < last
          · simp only [hlt, if_true]
            exact ⟨done, e, es, rfl, h.valid, h.offence?_of_lt he hlt⟩
          · simp only [hlt, if_false]
            obtain ⟨kept, rfl, hcursor, hnext⟩ := h.step hplace (Nat.not_lt.mp hlt)
            rw [List.append_cons, ← List.append_assoc, ← hcursor]
            exact ih hnext

end Edits
end StyleBundler
