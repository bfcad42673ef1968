import Mathlib.Data.List.TakeWhile
import StyleBundler.Text.Blank

/-!
Blanks at the ends of a text: what trimming takes away, and that more of them change
nothing.
-/

namespace StyleBundler.Text

theorem trim_blanks_append {blanks : List Char} (h : ∀ c ∈ blanks, isBlank c = true)
    (cs : List Char) : trim (blanks ++ cs) = trim cs := by
  simp only [trim, trimBoth, List.dropWhile_append_of_pos h]

theorem trim_append_blanks {blanks : List Char} (h : ∀ c ∈ blanks, isBlank c = true)
    (cs : List Char) : trim (cs ++ blanks) = trim cs := by
  by_cases hcs : ∀ c ∈ cs, isBlank c = true
  · have hall : ∀ c ∈ cs ++ blanks, isBlank c = true := by
      intro c hc
      rcases List.mem_append.mp hc with hc | hc
      · exact hcs c hc
      · exact h c hc
    simp only [trim, trimBoth, List.dropWhile_eq_nil_iff.mpr hcs,
      List.dropWhile_eq_nil_iff.mpr hall]
  · have hne : cs.dropWhile isBlank ≠ [] := by
      rwa [Ne, List.dropWhile_eq_nil_iff]
    have hrev : ∀ c ∈ blanks.reverse, isBlank c = true := by
      simpa using h
    simp only [trim, trimBoth, List.dropWhile_append, List.isEmpty_iff, if_neg hne,
      List.reverse_append, List.dropWhile_append_of_pos hrev]

/-- A text is its trimmed text between blanks. -/
theorem exists_blanks_trim (cs : List Char) :
    ∃ front back, (∀ c ∈ front, isBlank c = true) ∧ (∀ c ∈ back, isBlank c = true) ∧
      cs = front ++ (trim cs ++ back) := by
  refine ⟨cs.takeWhile isBlank,
    ((cs.dropWhile isBlank).reverse.takeWhile isBlank).reverse, ?_, ?_, ?_⟩
  · intro c hc
    exact List.mem_takeWhile_imp hc
  · intro c hc
    exact List.mem_takeWhile_imp (List.mem_reverse.mp hc)
  · rw [trim, trimBoth, ← List.reverse_append, List.takeWhile_append_dropWhile,
      List.reverse_reverse, List.takeWhile_append_dropWhile]

/-- A text that starts and ends with no blank is not trimmed. -/
theorem trim_eq_self {cs : List Char} (hfront : ∀ c ∈ cs.head?, isBlank c = false)
    (hback : ∀ c ∈ cs.getLast?, isBlank c = false) : trim cs = cs := by
  have hdrop : ∀ {ds : List Char}, (∀ c ∈ ds.head?, isBlank c = false) →
      ds.dropWhile isBlank = ds := by
    intro ds hds
    cases ds with
    | nil => rfl
    | cons d ds => simp [List.dropWhile, hds d (by simp)]
  rw [trim, trimBoth, hdrop hfront, hdrop, List.reverse_reverse]
  simpa using hback

theorem trim_trim (cs : List Char) : trim (trim cs) = trim cs := by
  obtain ⟨front, back, hfront, hback, hcs⟩ := exists_blanks_trim cs
  rw [← trim_append_blanks hback, ← trim_blanks_append hfront, ← hcs]

end StyleBundler.Text
