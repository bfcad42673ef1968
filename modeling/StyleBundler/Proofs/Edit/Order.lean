import Mathlib.Data.List.Perm.Subperm
import StyleBundler.Edit

/-!
The order in which edits apply. Sorting puts them by their offsets, insertions first, and leaves
peers, the edits of one offset and kind, as they were collected (`filter_ordered`); so the order
depends only on how peers follow each other (`ordered_congr`).
-/

namespace StyleBundler

namespace Edit

/-- Both start at one offset, and both are insertions or neither is one. -/
def isPeer (a b : Edit) : Bool :=
  a.span.start == b.span.start && a.span.isEmpty == b.span.isEmpty

theorem precedes_trans {a b c : Edit} (h : a.precedes b = true) (h' : b.precedes c = true) :
    a.precedes c = true := by
  simp only [precedes, Bool.or_eq_true, Bool.and_eq_true, decide_eq_true_eq, beq_iff_eq,
    Bool.not_eq_true'] at h h' ⊢
  rcases h with h | ⟨h, hkind⟩ <;> rcases h' with h' | ⟨h', hkind'⟩
  · exact .inl (Nat.lt_trans h h')
  · exact .inl (h' ▸ h)
  · exact .inl (h ▸ h')
  · refine .inr ⟨h.trans h', ?_⟩
    rcases hkind with hkind | hkind
    · exact .inl hkind
    · rw [hkind] at hkind'
      exact hkind'.imp nofun id

theorem precedes_total (a b : Edit) : (a.precedes b || b.precedes a) = true := by
  simp only [precedes, Bool.or_eq_true, Bool.and_eq_true, decide_eq_true_eq, beq_iff_eq,
    Bool.not_eq_true']
  rcases Nat.lt_trichotomy a.span.start b.span.start with h | h | h
  · exact .inl (.inl h)
  · cases hb : b.span.isEmpty with
    | false => exact .inl (.inr ⟨h, .inr rfl⟩)
    | true => exact .inr (.inr ⟨h.symm, .inl rfl⟩)
  · exact .inr (.inl h)

theorem isPeer_iff {a b : Edit} :
    a.isPeer b = true ↔ a.precedes b = true ∧ b.precedes a = true := by
  simp only [isPeer, precedes, Bool.or_eq_true, Bool.and_eq_true, decide_eq_true_eq, beq_iff_eq,
    Bool.not_eq_true']
  cases a.span.isEmpty <;> cases b.span.isEmpty <;> simp <;> omega

theorem isPeer_iff_span_eq {a b : Edit} (h : a.span.isEmpty = true) :
    a.isPeer b = true ↔ b.span = ⟨a.span.start, a.span.start⟩ := by
  rw [isPeer, h, Bool.and_eq_true, beq_iff_eq, beq_iff_eq, eq_comm (a := true), Span.isEmpty,
    beq_iff_eq]
  obtain ⟨⟨start, stop⟩, _⟩ := b
  simp only [Span.mk.injEq]
  omega

theorem isPeer_iff_start_eq {a b : Edit} (h : a.span.isEmpty = false) :
    a.isPeer b = true ↔ b.span.start = a.span.start ∧ b.span.start ≠ b.span.stop := by
  rw [isPeer, h, Bool.and_eq_true, beq_iff_eq, beq_iff_eq, eq_comm (a := false), Span.isEmpty,
    beq_eq_false_iff_ne, eq_comm (a := a.span.start)]

theorem start_le_of_precedes {a b : Edit} (h : a.precedes b = true) :
    a.span.start ≤ b.span.start := by
  simp only [precedes, Bool.or_eq_true, Bool.and_eq_true, decide_eq_true_eq, beq_iff_eq] at h
  omega

end Edit

namespace Edits

/-- The edits in the order in which they apply. -/
def ordered (es : List Edit) : List Edit := es.mergeSort Edit.precedes

theorem ordered_perm (es : List Edit) : (ordered es).Perm es := es.mergeSort_perm _

theorem pairwise_ordered (es : List Edit) :
    (ordered es).Pairwise fun a b => a.precedes b = true :=
  @List.pairwise_mergeSort _ Edit.precedes (fun _ _ _ => Edit.precedes_trans)
    Edit.precedes_total es

/-- Peers stay as they were. -/
theorem filter_ordered (es : List Edit) (e : Edit) :
    (ordered es).filter e.isPeer = es.filter e.isPeer := by
  have hpeers : (es.filter e.isPeer).Pairwise fun a b => a.precedes b = true := by
    refine List.pairwise_of_forall_mem_list ?_
    intro a ha b hb
    have ha := Edit.isPeer_iff.mp (List.mem_filter.mp ha).2
    have hb := Edit.isPeer_iff.mp (List.mem_filter.mp hb).2
    exact Edit.precedes_trans ha.2 hb.1
  have hsub : (es.filter e.isPeer).Sublist (ordered es) :=
    @List.sublist_mergeSort _ Edit.precedes _ (fun _ _ _ => Edit.precedes_trans)
      Edit.precedes_total _ hpeers List.filter_sublist
  have hsub := hsub.filter e.isPeer
  simp only [List.filter_filter, Bool.and_self] at hsub
  exact (hsub.eq_of_length ((ordered_perm es).filter _).length_eq.symm).symm

/-- Sorted lists with the same peers in the same order are equal. -/
theorem eq_of_filter_eq {es es' : List Edit}
    (h : es.Pairwise fun a b => a.precedes b = true)
    (h' : es'.Pairwise fun a b => a.precedes b = true) (hperm : es.Perm es')
    (hpeers : ∀ e : Edit, es.filter e.isPeer = es'.filter e.isPeer) : es = es' := by
  induction es generalizing es' with
  | nil => exact hperm.nil_eq
  | cons a es ih =>
      cases es' with
      | nil => exact absurd hperm (List.not_perm_cons_nil)
      | cons b es' =>
          obtain ⟨hfirst, htail⟩ := List.pairwise_cons.mp h
          obtain ⟨hfirst', htail'⟩ := List.pairwise_cons.mp h'
          have hself : a.precedes a = true := by simpa using Edit.precedes_total a a
          have hab : a.precedes b = true := by
            rcases List.mem_cons.mp (hperm.mem_iff.mpr List.mem_cons_self) with rfl | hb
            · exact hself
            · exact hfirst b hb
          have hba : b.precedes a = true := by
            rcases List.mem_cons.mp (hperm.mem_iff.mp List.mem_cons_self) with rfl | ha
            · exact hself
            · exact hfirst' a ha
          have hhead := hpeers a
          rw [List.filter_cons_of_pos (Edit.isPeer_iff.mpr ⟨hself, hself⟩),
            List.filter_cons_of_pos (Edit.isPeer_iff.mpr ⟨hab, hba⟩)] at hhead
          obtain ⟨rfl, -⟩ := List.cons.inj hhead
          congr 1
          refine ih htail htail' hperm.cons_inv ?_
          intro e
          have hrest := hpeers e
          simp only [List.filter_cons] at hrest
          split at hrest
          · exact (List.cons.inj hrest).2
          · exact hrest

theorem ordered_congr {es es' : List Edit} (hperm : es.Perm es')
    (hpeers : ∀ e : Edit, es.filter e.isPeer = es'.filter e.isPeer) :
    ordered es = ordered es' := by
  refine eq_of_filter_eq (pairwise_ordered es) (pairwise_ordered es') ?_ ?_
  · exact (ordered_perm es).trans (hperm.trans (ordered_perm es').symm)
  · intro e
    rw [filter_ordered, filter_ordered, hpeers]

end Edits
end StyleBundler
