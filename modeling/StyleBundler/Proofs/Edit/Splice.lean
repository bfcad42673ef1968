import StyleBundler.Proofs.Edit.Validity

/-!
What edits make of a source. The reference is to splice one edit after the other into the text,
from the last to the first, so that no splice moves the place of one still to come
(`Edits.spliceEach`). The walk over the source that copies what no edit covers gives the same
text (`spliceEach_eq_patches`).
-/

namespace StyleBundler

open Text

/-- The text with the edit put in the place of its span. -/
def Edit.splice? (source : List Char) (e : Edit) : Option (List Char) :=
  if e.span.start ≤ e.span.stop then do
    let (before, tail) ← cut? e.span.start source
    let (_, after) ← cut? (e.span.stop - e.span.start) tail
    some (before ++ e.replacement.toList ++ after)
  else none

theorem Edit.splice?_append {before covered after : List Char} {e : Edit}
    (hstart : byteLength before = e.span.start)
    (hstop : e.span.start + byteLength covered = e.span.stop) :
    e.splice? (before ++ (covered ++ after)) =
      some (before ++ e.replacement.toList ++ after) := by
  have hle : byteLength before ≤ e.span.stop := by omega
  have hcovered : e.span.stop - byteLength before = byteLength covered := by omega
  simp only [splice?, ← hstart, hle, if_true, hcovered, cut?_append, Option.bind_eq_bind,
    Option.bind_some]

namespace Edits

/-- The edits spliced in one at a time, the last one first. -/
def spliceEach (source : List Char) (es : List Edit) : Option (List Char) :=
  es.foldr (fun e edited => edited.bind e.splice?) (some source)

/-- The edits, one behind the other, are places in the source from the offset `cursor` on. -/
inductive Aligned : Nat → List Char → List Edit → Prop where
  | nil (cursor : Nat) (rest : List Char) : Aligned cursor rest []
  | cons {cursor : Nat} {kept covered tail : List Char} {e : Edit} {es : List Edit}
      (start : cursor + byteLength kept = e.span.start)
      (stop : e.span.start + byteLength covered = e.span.stop)
      (behind : Aligned e.span.stop tail es) :
      Aligned cursor (kept ++ (covered ++ tail)) (e :: es)

/-- Valid edits in their order are aligned. -/
theorem Valid.aligned_append {a rest : List Char} {es : List Edit}
    (h : Valid (a ++ rest) es) (hchain : es.Pairwise fun d e => d.span.stop ≤ e.span.start)
    (hcursor : ∀ e ∈ es, byteLength a ≤ e.span.start) : Aligned (byteLength a) rest es := by
  induction es generalizing a rest with
  | nil => exact .nil _ rest
  | cons e es ih =>
      obtain ⟨hbehind, hchain⟩ := List.pairwise_cons.mp hchain
      have he := h.1 e List.mem_cons_self
      rw [Edit.isValid_iff_fits, Edit.fits, Option.isSome_iff_exists] at he
      obtain ⟨covered, hslice⟩ := he
      obtain ⟨before, tail, hsource, hstart, hstop⟩ := slice?_eq_some_iff.mp hslice
      have hle := hcursor e List.mem_cons_self
      obtain ⟨kept, rfl, rfl⟩ := exists_middle hsource (by omega)
      rw [byteLength_append] at hstart
      have hreached : byteLength (a ++ kept ++ covered) = e.span.stop := by
        simp only [byteLength_append]
        omega
      refine .cons hstart hstop ?_
      rw [← hreached]
      refine ih ?_ hchain ?_
      · simpa using h.sublist (List.sublist_cons_self e es)
      · intro d hd
        rw [hreached]
        exact hbehind d hd

theorem Valid.aligned {source : List Char} {es : List Edit} (h : Valid source es)
    (hchain : es.Pairwise fun d e => d.span.stop ≤ e.span.start) : Aligned 0 source es :=
  Valid.aligned_append (a := []) h hchain fun _ _ => Nat.zero_le _

theorem Aligned.bounds {cursor : Nat} {rest : List Char} {es : List Edit}
    (h : Aligned cursor rest es) : ∀ e ∈ es, cursor ≤ e.span.start ∧ e.span.start ≤ e.span.stop := by
  induction h with
  | nil => exact nofun
  | cons hstart hstop _ ih =>
      intro d hd
      rcases List.mem_cons.mp hd with rfl | hd
      · omega
      · have := ih d hd
        omega

theorem patches_cons {cursor : Nat} {kept covered tail : List Char} {e : Edit}
    (es : List Edit) (hstart : cursor + byteLength kept = e.span.start)
    (hstop : e.span.start + byteLength covered = e.span.stop) :
    patches cursor (kept ++ (covered ++ tail)) (e :: es) =
      (if kept.isEmpty then [] else [⟨true, cursor, kept⟩]) ++
        (if e.replacement.isEmpty then []
          else [⟨false, e.span.start, e.replacement.toList⟩]) ++
        patches e.span.stop tail es := by
  have hkept : e.span.start - cursor = byteLength kept := by omega
  have hcovered : e.span.stop - e.span.start = byteLength covered := by omega
  simp only [patches, hkept, cut?_append, Option.getD_some, hcovered]

/-- The text of the patches: what is kept and what is put in, in turn. -/
def patched (cursor : Nat) (rest : List Char) (es : List Edit) : List Char :=
  (patches cursor rest es).flatMap Patch.text

theorem patched_nil (cursor : Nat) (rest : List Char) : patched cursor rest [] = rest := by
  cases rest <;> simp [patched, patches]

theorem flatMap_text_kept (cursor : Nat) (kept : List Char) :
    (if kept.isEmpty then [] else [Patch.mk true cursor kept]).flatMap Patch.text = kept := by
  cases kept <;> simp

theorem flatMap_text_replacement (e : Edit) :
    (if e.replacement.isEmpty then []
      else [Patch.mk false e.span.start e.replacement.toList]).flatMap Patch.text =
        e.replacement.toList := by
  by_cases h : e.replacement.isEmpty = true
  · simp [String.isEmpty_iff.mp h]
  · simp [h]

theorem patched_cons {cursor : Nat} {kept covered tail : List Char} {e : Edit}
    (es : List Edit) (hstart : cursor + byteLength kept = e.span.start)
    (hstop : e.span.start + byteLength covered = e.span.stop) :
    patched cursor (kept ++ (covered ++ tail)) (e :: es) =
      kept ++ (e.replacement.toList ++ patched e.span.stop tail es) := by
  rw [patched, patches_cons es hstart hstop, patched, List.flatMap_append, List.flatMap_append,
    flatMap_text_kept, flatMap_text_replacement, List.append_assoc]

/-- Walking over the source once gives what splicing edit by edit gives. -/
theorem Aligned.spliceEach_append {a rest : List Char} {es : List Edit} {cursor : Nat}
    (h : Aligned cursor rest es) (ha : byteLength a = cursor) :
    spliceEach (a ++ rest) es = some (a ++ patched cursor rest es) := by
  induction h generalizing a with
  | nil cursor rest => rw [patched_nil]; rfl
  | @cons cursor kept covered tail e es hstart hstop _ ih =>
      have hrest := ih (a := a ++ kept ++ covered) (by simp only [byteLength_append]; omega)
      simp only [List.append_assoc] at hrest
      rw [spliceEach, List.foldr_cons, ← spliceEach, hrest, patched_cons es hstart hstop,
        Option.bind_some, ← List.append_assoc a kept, Edit.splice?_append _ hstop]
      · simp
      · simp only [byteLength_append]
        omega

theorem Aligned.spliceEach_eq {source : List Char} {es : List Edit} (h : Aligned 0 source es) :
    spliceEach source es = some (patched 0 source es) :=
  h.spliceEach_append (a := []) rfl

theorem spliceEach_eq_patches {source : List Char} {es : List Edit} (h : Valid source es)
    (hsorted : es.Pairwise fun d e => d.precedes e = true) :
    spliceEach source es = some ((patches 0 source es).flatMap Patch.text) :=
  (h.aligned (h.pairwise_stop_le hsorted)).spliceEach_eq

end Edits
end StyleBundler
