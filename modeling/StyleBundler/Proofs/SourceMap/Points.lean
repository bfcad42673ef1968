import StyleBundler.Proofs.Edit.Splice
import StyleBundler.SourceMap.Mapping

/-!
The offsets that get a mapping, and the offsets they come from. They are boundaries in both texts,
the former strictly increasing and the latter in order (`Aligned.traced`). Each copied character
has such an offset in front of it on its line, with the same text in between on both sides and no
further one up to the character (`Aligned.anchored`).
-/

namespace StyleBundler

open Text

namespace SourceMap

theorem exists_of_mem_lineStarts {n offset : Nat} {text : List Char}
    (h : n ∈ lineStarts offset text) :
    ∃ u v, text = u ++ v ∧ u ≠ [] ∧ v ≠ [] ∧ n = offset + byteLength u := by
  induction text generalizing offset with
  | nil => cases h
  | cons c text ih =>
      cases text with
      | nil => cases h
      | cons d text =>
          have hlater : n ∈ lineStarts (offset + c.utf8Size) (d :: text) →
              ∃ u v, c :: d :: text = u ++ v ∧ u ≠ [] ∧ v ≠ [] ∧ n = offset + byteLength u := by
            intro h
            obtain ⟨u, v, htext, -, hv, rfl⟩ := ih h
            exact ⟨c :: u, v, by rw [htext]; rfl, List.cons_ne_nil _ _, hv,
              by rw [byteLength_cons, Nat.add_assoc]⟩
          simp only [lineStarts] at h
          split at h
          · rcases List.mem_cons.mp h with rfl | h
            · exact ⟨[c], d :: text, rfl, List.cons_ne_nil _ _, List.cons_ne_nil _ _, by simp⟩
            · exact hlater h
          · exact hlater h

theorem lt_of_mem_lineStarts {n offset : Nat} {text : List Char}
    (h : n ∈ lineStarts offset text) : offset < n ∧ n < offset + byteLength text := by
  obtain ⟨u, v, rfl, hu, hv, rfl⟩ := exists_of_mem_lineStarts h
  have := byteLength_pos hu
  have := byteLength_pos hv
  rw [byteLength_append]
  omega

theorem pairwise_lineStarts (offset : Nat) (text : List Char) :
    (offset :: lineStarts offset text).Pairwise (· < ·) := by
  refine List.pairwise_cons.mpr ⟨fun n hn => (lt_of_mem_lineStarts hn).1, ?_⟩
  induction text generalizing offset with
  | nil => exact .nil
  | cons c text ih =>
      cases text with
      | nil => exact .nil
      | cons d text =>
          simp only [lineStarts]
          split
          · refine List.pairwise_cons.mpr ⟨fun n hn => (lt_of_mem_lineStarts hn).1, ih _⟩
          · exact ih _

/-- Up to a character, the last line of a text starts at one of its line starts, and the others
come behind the character. -/
theorem exists_lineStart (offset : Nat) (u : List Char) (c : Char) (v : List Char) :
    ∃ u₁ u₂ starts later, u = u₁ ++ u₂ ∧ '\n' ∉ u₂ ∧
      offset :: lineStarts offset (u ++ c :: v) =
        starts ++ (offset + byteLength u₁) :: later ∧
      ∀ n ∈ later, offset + byteLength u < n := by
  induction u generalizing offset with
  | nil =>
      exact ⟨[], [], [], _, rfl, List.not_mem_nil, rfl, fun n hn => (lt_of_mem_lineStarts hn).1⟩
  | cons d u ih =>
      obtain ⟨u₁, u₂, starts, later, rfl, hline, hstarts, hlater⟩ := ih (offset + d.utf8Size)
      obtain ⟨e, w, hrest⟩ : ∃ e w, u₁ ++ u₂ ++ c :: v = e :: w :=
        List.exists_cons_of_ne_nil (by simp)
      have hoffset : offset + d.utf8Size + byteLength u₁ = offset + byteLength (d :: u₁) := by
        rw [byteLength_cons, Nat.add_assoc]
      have hlater : ∀ n ∈ later, offset + byteLength (d :: (u₁ ++ u₂)) < n := by
        intro n hn
        have := hlater n hn
        rw [byteLength_cons]
        omega
      rw [hrest, hoffset] at hstarts
      simp only [List.cons_append, hrest, lineStarts]
      by_cases hd : d = '\n'
      · rw [if_pos hd, hstarts]
        exact ⟨d :: u₁, u₂, offset :: starts, later, rfl, hline, rfl, hlater⟩
      · rw [if_neg hd]
        cases starts with
        | nil =>
            -- No line starts up to the character: the text does, with `d` in front.
            obtain ⟨hfirst, rfl⟩ := List.cons.inj hstarts
            have hu₁ : u₁ = [] := by
              by_contra hu₁
              have := byteLength_pos hu₁
              rw [byteLength_cons] at hfirst
              omega
            subst hu₁
            refine ⟨[], d :: u₂, [], _, rfl, ?_, rfl, hlater⟩
            rw [List.mem_cons, not_or]
            exact ⟨Ne.symm hd, hline⟩
        | cons start starts =>
            obtain ⟨-, hstarts⟩ := List.cons.inj hstarts
            rw [hstarts]
            exact ⟨d :: u₁, u₂, offset :: starts, later, rfl, hline, rfl, hlater⟩

/-- Offsets of a text that starts at `offset`, each with the offset it comes from in a text that
starts at `cursor`: boundaries on both sides, and in order. -/
structure Traced (offset : Nat) (text : List Char) (cursor : Nat) (rest : List Char)
    (pts : List (Nat × Nat)) : Prop where
  generated : ∀ q ∈ pts, ∃ u v, text = u ++ v ∧ v ≠ [] ∧ q.1 = offset + byteLength u
  origin : ∀ q ∈ pts, ∃ u v, rest = u ++ v ∧ q.2 = cursor + byteLength u
  ordered : pts.Pairwise fun p q => p.1 < q.1 ∧ p.2 ≤ q.2

namespace Traced

theorem nil (offset : Nat) (text : List Char) (cursor : Nat) (rest : List Char) :
    Traced offset text cursor rest [] :=
  ⟨nofun, nofun, .nil⟩

variable {offset cursor : Nat} {text text' rest rest' : List Char} {pts pts' : List (Nat × Nat)}

theorem append (h : Traced offset text cursor rest pts)
    {offset' cursor' : Nat} (h' : Traced offset' text' cursor' rest' pts')
    (hoffset : offset + byteLength text = offset') (hcursor : cursor + byteLength rest = cursor') :
    Traced offset (text ++ text') cursor (rest ++ rest') (pts ++ pts') where
  generated := by
    subst hoffset
    intro q hq
    rcases List.mem_append.mp hq with hq | hq
    · obtain ⟨u, v, rfl, hv, hoffset⟩ := h.generated q hq
      exact ⟨u, v ++ text', by simp, by simp [hv], hoffset⟩
    · obtain ⟨u, v, rfl, hv, hoffset⟩ := h'.generated q hq
      exact ⟨text ++ u, v, by simp, hv, by rw [hoffset, byteLength_append, Nat.add_assoc]⟩
  origin := by
    subst hcursor
    intro q hq
    rcases List.mem_append.mp hq with hq | hq
    · obtain ⟨u, v, rfl, hcursor⟩ := h.origin q hq
      exact ⟨u, v ++ rest', by simp, hcursor⟩
    · obtain ⟨u, v, rfl, hcursor⟩ := h'.origin q hq
      exact ⟨rest ++ u, v, by simp, by rw [hcursor, byteLength_append, Nat.add_assoc]⟩
  ordered := by
    subst hoffset hcursor
    refine List.pairwise_append.mpr ⟨h.ordered, h'.ordered, ?_⟩
    intro p hp q hq
    obtain ⟨u, v, rfl, hv, hoffset⟩ := h.generated p hp
    obtain ⟨u', v', rfl, hcursor⟩ := h.origin p hp
    obtain ⟨_, _, -, -, hoffset'⟩ := h'.generated q hq
    obtain ⟨_, _, -, hcursor'⟩ := h'.origin q hq
    have := byteLength_pos hv
    simp only [byteLength_append] at hoffset' hcursor'
    omega

end Traced

/-- The points of a stretch that is kept. -/
def keptPoints (offset cursor : Nat) (kept : List Char) : List (Nat × Nat) :=
  if kept.isEmpty then []
  else (offset :: lineStarts offset kept).map fun n => (n, cursor + (n - offset))

/-- The point of a text put in. -/
def replacementPoints (offset start : Nat) (text : String) : List (Nat × Nat) :=
  if text.isEmpty then [] else [(offset, start)]

theorem traced_keptPoints (offset cursor : Nat) (kept : List Char) :
    Traced offset kept cursor kept (keptPoints offset cursor kept) := by
  rw [keptPoints]
  split
  · exact .nil _ _ _ _
  · next hkept =>
      rw [List.isEmpty_iff] at hkept
      have hmem : ∀ n ∈ offset :: lineStarts offset kept,
          ∃ u v, kept = u ++ v ∧ v ≠ [] ∧ n = offset + byteLength u := by
        intro n hn
        rcases List.mem_cons.mp hn with rfl | hn
        · exact ⟨[], kept, rfl, hkept, rfl⟩
        · obtain ⟨u, v, hsplit, -, hv, hn⟩ := exists_of_mem_lineStarts hn
          exact ⟨u, v, hsplit, hv, hn⟩
      refine ⟨?_, ?_, ?_⟩
      · intro q hq
        obtain ⟨n, hn, rfl⟩ := List.mem_map.mp hq
        exact hmem n hn
      · intro q hq
        obtain ⟨n, hn, rfl⟩ := List.mem_map.mp hq
        obtain ⟨u, v, hsplit, -, rfl⟩ := hmem n hn
        exact ⟨u, v, hsplit, by simp⟩
      · refine List.pairwise_map.mpr ((pairwise_lineStarts offset kept).imp ?_)
        intro m n hmn
        exact ⟨hmn, by omega⟩

theorem traced_replacementPoints (offset start : Nat) (text : String) (covered : List Char) :
    Traced offset text.toList start covered (replacementPoints offset start text) := by
  rw [replacementPoints]
  split
  · exact .nil _ _ _ _
  · next htext =>
      rw [String.isEmpty_iff, ← String.toList_eq_nil_iff] at htext
      refine ⟨?_, ?_, List.pairwise_singleton _ _⟩
      · intro q hq
        rw [List.mem_singleton.mp hq]
        exact ⟨[], text.toList, rfl, htext, rfl⟩
      · intro q hq
        rw [List.mem_singleton.mp hq]
        exact ⟨[], covered, rfl, rfl⟩

/-- A character of a text that starts at `cursor` stands behind `before` in a text that starts at
`offset`. The last point in front of it is on its line, with the same text between the two on
both sides. -/
def Anchored (offset cursor : Nat) (a : List Char) (c : Char) (before text : List Char)
    (pts : List (Nat × Nat)) : Prop :=
  ∃ a₁ before₁ mid after earlier later, a = a₁ ++ mid ∧ before = before₁ ++ mid ∧ '\n' ∉ mid ∧
    text = before ++ c :: after ∧
    pts = earlier ++ (offset + byteLength before₁, cursor + byteLength a₁) :: later ∧
    ∀ q ∈ later, offset + byteLength before < q.1

namespace Anchored

variable {offset cursor : Nat} {a before text : List Char} {c : Char} {pts : List (Nat × Nat)}

theorem keptPoints (offset cursor : Nat) (u : List Char) (c : Char) (v : List Char) :
    Anchored offset cursor u c u (u ++ c :: v) (keptPoints offset cursor (u ++ c :: v)) := by
  obtain ⟨k, mid, starts, later, hu, hline, hstarts, hlater⟩ := exists_lineStart offset u c v
  have hpoint : offset + byteLength k - offset = byteLength k := by omega
  let point := fun n => (n, cursor + (n - offset))
  refine ⟨k, k, mid, v, starts.map point, later.map point, hu, hu, hline, rfl, ?_, ?_⟩
  · rw [SourceMap.keptPoints, if_neg (by simp), hstarts, List.map_append, List.map_cons, hpoint]
  · intro q hq
    obtain ⟨n, hn, rfl⟩ := List.mem_map.mp hq
    exact hlater n hn

theorem append (h : Anchored offset cursor a c before text pts) {text' : List Char}
    {pts' : List (Nat × Nat)} (hpts' : ∀ q ∈ pts', offset + byteLength text ≤ q.1) :
    Anchored offset cursor a c before (text ++ text') (pts ++ pts') := by
  obtain ⟨a₁, before₁, mid, after, earlier, later, ha, hbefore, hline, rfl, rfl, hlater⟩ := h
  refine ⟨a₁, before₁, mid, after ++ text', earlier, later ++ pts', ha, hbefore, hline, by simp,
    by simp, ?_⟩
  intro q hq
  rcases List.mem_append.mp hq with hq | hq
  · exact hlater q hq
  · have hle := hpts' q hq
    have := Char.utf8Size_pos c
    simp only [byteLength_append, byteLength_cons] at hle
    omega

theorem behind {offset' cursor' : Nat} {text' rest' : List Char} {pts' : List (Nat × Nat)}
    (h : Anchored offset' cursor' a c before text pts)
    (hoffset : offset + byteLength text' = offset') (hcursor : cursor + byteLength rest' = cursor') :
    Anchored offset cursor (rest' ++ a) c (text' ++ before) (text' ++ text) (pts' ++ pts) := by
  subst hoffset hcursor
  obtain ⟨a₁, before₁, mid, after, earlier, later, rfl, rfl, hline, rfl, rfl, hlater⟩ := h
  refine ⟨rest' ++ a₁, text' ++ before₁, mid, after, pts' ++ earlier, later, by simp, by simp,
    hline, by simp, ?_, ?_⟩
  · simp only [byteLength_append, List.append_assoc, Nat.add_assoc]
  · intro q hq
    have := hlater q hq
    simp only [byteLength_append] at this ⊢
    omega

end Anchored

end SourceMap

namespace Edits

open SourceMap

variable {cursor : Nat} {kept covered tail : List Char} {e : Edit}

theorem points_nil (offset cursor : Nat) (rest : List Char) :
    points offset (patches cursor rest []) = keptPoints offset cursor rest := by
  cases rest with
  | nil => rfl
  | cons c rest => simp [patches, points, patchPoints, keptPoints]

theorem points_append (offset : Nat) (ps qs : List Patch) :
    points offset (ps ++ qs) =
      points offset ps ++ points (offset + byteLength (ps.flatMap Patch.text)) qs := by
  induction ps generalizing offset with
  | nil => rfl
  | cons p ps ih =>
      rw [List.cons_append, points, points, ih, List.flatMap_cons, byteLength_append,
        List.append_assoc, Nat.add_assoc]

theorem points_cons (offset : Nat) (es : List Edit)
    (hstart : cursor + byteLength kept = e.span.start)
    (hstop : e.span.start + byteLength covered = e.span.stop) :
    points offset (patches cursor (kept ++ (covered ++ tail)) (e :: es)) =
      keptPoints offset cursor kept ++
        (replacementPoints (offset + byteLength kept) e.span.start e.replacement ++
          points (offset + byteLength kept + byteLength e.replacement.toList)
            (patches e.span.stop tail es)) := by
  rw [patches_cons es hstart hstop, List.append_assoc, points_append, points_append,
    flatMap_text_kept, flatMap_text_replacement, keptPoints, replacementPoints]
  congr 1
  · cases kept <;> simp [points, patchPoints]
  · congr 1
    split <;> simp [points, patchPoints]

/-- The points of aligned edits, in both texts. -/
theorem Aligned.traced {rest : List Char} {es : List Edit} (h : Aligned cursor rest es)
    (offset : Nat) :
    Traced offset (patched cursor rest es) cursor rest (points offset (patches cursor rest es)) := by
  induction h generalizing offset with
  | nil cursor rest =>
      rw [points_nil, patched_nil]
      exact traced_keptPoints offset cursor rest
  | @cons cursor kept covered tail e es hstart hstop _ ih =>
      rw [points_cons offset es hstart hstop, patched_cons es hstart hstop]
      refine (traced_keptPoints offset cursor kept).append ?_ rfl hstart
      exact (traced_replacementPoints _ _ _ covered).append (ih _) rfl hstop

/-- The start of a replacement is a point. In front of it stands what the edits before it make of
the source before it. -/
theorem Aligned.exists_replacement {rest : List Char} {done todo : List Edit}
    (h : Aligned cursor rest (done ++ e :: todo)) (hreplacement : e.replacement ≠ "")
    (offset : Nat) :
    ∃ a b B, rest = a ++ b ∧ cursor + byteLength a = e.span.start ∧ Aligned cursor a done ∧
      patched cursor rest (done ++ e :: todo) =
        patched cursor a done ++ (e.replacement.toList ++ B) ∧
      (offset + byteLength (patched cursor a done), e.span.start) ∈
        points offset (patches cursor rest (done ++ e :: todo)) := by
  induction done generalizing cursor rest offset with
  | nil =>
      cases h with
      | @cons _ kept covered tail _ _ hstart hstop hbehind =>
          refine ⟨kept, covered ++ tail, patched e.span.stop tail todo, rfl, hstart, .nil _ _,
            ?_, ?_⟩
          · rw [List.nil_append, patched_cons todo hstart hstop, patched_nil]
          · have hpoint : replacementPoints (offset + byteLength kept) e.span.start e.replacement =
                [(offset + byteLength kept, e.span.start)] := by
              rw [replacementPoints, if_neg]
              rwa [String.isEmpty_iff]
            rw [List.nil_append, points_cons offset todo hstart hstop, hpoint, patched_nil]
            simp
  | cons d done ih =>
      cases h with
      | @cons _ kept covered tail _ _ hstart hstop hbehind =>
          obtain ⟨a, b, B, rfl, ha, haligned, hpatched, hpoint⟩ := ih hbehind
            (offset + byteLength kept + byteLength d.replacement.toList)
          refine ⟨kept ++ (covered ++ a), b, B, by simp, ?_, .cons hstart hstop haligned, ?_, ?_⟩
          · simp only [byteLength_append]
            omega
          · rw [List.cons_append, patched_cons _ hstart hstop, patched_cons _ hstart hstop, hpatched]
            simp
          · rw [List.cons_append, points_cons offset _ hstart hstop, patched_cons _ hstart hstop]
            refine List.mem_append_right _ (List.mem_append_right _ ?_)
            simpa only [byteLength_append, Nat.add_assoc] using hpoint

/-- A character outside the spans of the edits is copied. In front of it stands what the edits
before it make of the source before it. -/
theorem Aligned.anchored {rest : List Char} {es : List Edit} (h : Aligned cursor rest es)
    {a b : List Char} {c : Char} (hrest : rest = a ++ c :: b)
    (houtside : ∀ d ∈ es,
      ¬(d.span.start ≤ cursor + byteLength a ∧ cursor + byteLength a < d.span.stop))
    (offset : Nat) :
    Aligned cursor a (es.filter (·.span.stop ≤ cursor + byteLength a)) ∧
      Anchored offset cursor a c
        (patched cursor a (es.filter (·.span.stop ≤ cursor + byteLength a)))
        (patched cursor rest es) (points offset (patches cursor rest es)) := by
  induction h generalizing a offset with
  | nil cursor rest =>
      rw [List.filter_nil, patched_nil, patched_nil, points_nil, hrest]
      exact ⟨.nil _ _, .keptPoints offset cursor a c b⟩
  | @cons cursor kept covered tail e es hstart hstop hbehind ih =>
      by_cases hfront : e.span.stop ≤ cursor + byteLength a
      · -- The edit is in front of the character, which is in the text behind the edit.
        obtain ⟨a', rfl, htail⟩ : ∃ a', a = kept ++ (covered ++ a') ∧ tail = a' ++ c :: b := by
          rw [← List.append_assoc] at hrest
          obtain ⟨a', rfl, htail⟩ := exists_middle hrest (by rw [byteLength_append]; omega)
          exact ⟨a', List.append_assoc _ _ _, htail⟩
        have hcursor : cursor + byteLength (kept ++ (covered ++ a')) =
            e.span.stop + byteLength a' := by
          simp only [byteLength_append]
          omega
        rw [hcursor] at houtside hfront ⊢
        obtain ⟨haligned, hanchored⟩ := ih htail
          (fun d hd => houtside d (List.mem_cons_of_mem _ hd))
          (offset + byteLength kept + byteLength e.replacement.toList)
        rw [List.filter_cons_of_pos (by simp)]
        refine ⟨.cons hstart hstop haligned, ?_⟩
        rw [patched_cons _ hstart hstop, patched_cons _ hstart hstop,
          points_cons offset _ hstart hstop]
        exact (hanchored.behind rfl hstop).behind rfl hstart
      · -- The edit is behind the character, which is in the text in front of the edit.
        have hbefore : cursor + byteLength a < e.span.start := by
          have := houtside e List.mem_cons_self
          omega
        obtain ⟨kept', rfl⟩ : ∃ kept', kept = a ++ c :: kept' := by
          obtain ⟨d, rfl, hd⟩ := exists_middle hrest.symm (by omega)
          cases d with
          | nil =>
              rw [List.append_nil] at hstart
              omega
          | cons d ds =>
              obtain ⟨rfl, -⟩ := List.cons.inj hd
              exact ⟨ds, rfl⟩
        have hfilter : (e :: es).filter (·.span.stop ≤ cursor + byteLength a) = [] := by
          rw [List.filter_eq_nil_iff]
          intro d hd
          rw [decide_eq_true_eq, Nat.not_le]
          rcases List.mem_cons.mp hd with rfl | hd
          · omega
          · have := hbehind.bounds d hd
            omega
        rw [hfilter, patched_nil, patched_cons _ hstart hstop, points_cons offset _ hstart hstop]
        refine ⟨.nil _ _, (Anchored.keptPoints offset cursor a c kept').append ?_⟩
        intro q hq
        have htraced := (traced_replacementPoints (offset + byteLength (a ++ c :: kept'))
          e.span.start e.replacement covered).append (hbehind.traced _) rfl hstop
        obtain ⟨_, _, -, -, hoffset⟩ := htraced.generated q hq
        omega

end Edits
end StyleBundler
