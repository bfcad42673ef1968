import StyleBundler.Output

/-!
Listings as maps. Adding a value changes what is listed under its name and nothing else
(`lookup_insert`), and keeps the names in order (`Ordered.insert`). Listings in order are equal
when they list the same (`Ordered.ext`), so that it does not matter in which order their values
were added.
-/

namespace StyleBundler

namespace Listing

variable {α : Type} {l l' : Listing α} {name other : String} {value : α} {entry : String × α}

theorem lookup_cons (l : Listing α) (first : String) (old : α) (name : String) :
    List.lookup name ((first, old) :: l) = if name = first then some old else l.lookup name := by
  rw [List.lookup_cons]
  split
  · next h => rw [if_pos (beq_iff_eq.mp h)]
  · next h => rw [if_neg (beq_eq_false_iff_ne.mp h)]

theorem lookup_insert (l : Listing α) (name : String) (value : α) (other : String) :
    (insert name value l).lookup other = if other = name then some value else l.lookup other := by
  induction l with
  | nil => rw [insert, lookup_cons]
  | cons head l ih =>
      obtain ⟨first, old⟩ := head
      simp only [insert]
      split
      · rw [lookup_cons]
      · split
        · next heq =>
            rw [lookup_cons, lookup_cons, heq]
            split <;> rfl
        · next hne =>
            rw [lookup_cons, ih, lookup_cons]
            by_cases h : other = first
            · rw [if_pos h, if_neg (h ▸ Ne.symm hne), if_pos h]
            · rw [if_neg h, if_neg h]

theorem mem_insert (h : entry ∈ insert name value l) : entry = (name, value) ∨ entry ∈ l := by
  induction l with
  | nil => exact .inl (List.mem_singleton.mp h)
  | cons head l ih =>
      obtain ⟨first, old⟩ := head
      simp only [insert] at h
      split at h
      · exact List.mem_cons.mp h
      · split at h
        · exact (List.mem_cons.mp h).imp_right (List.mem_cons_of_mem _)
        · obtain rfl | h := List.mem_cons.mp h
          · exact .inr List.mem_cons_self
          · exact (ih h).imp_right (List.mem_cons_of_mem _)

theorem mem_of_lookup (h : l.lookup name = some value) : (name, value) ∈ l := by
  obtain ⟨front, back, hsplit, -⟩ := List.lookup_eq_some_iff.mp h
  simp [hsplit]

/-- Adds values in turn. -/
def insertEach (entries : List (String × α)) (l : Listing α) : Listing α :=
  entries.foldl (fun l entry => insert entry.1 entry.2 l) l

theorem lookup_insertEach_of_notMem {entries : List (String × α)}
    (h : ∀ value, (name, value) ∉ entries) (l : Listing α) :
    (insertEach entries l).lookup name = l.lookup name := by
  induction entries generalizing l with
  | nil => rfl
  | cons entry entries ih =>
      have hne : name ≠ entry.1 := fun heq => h entry.2 (heq ▸ List.mem_cons_self)
      rw [insertEach, List.foldl_cons, ← insertEach,
        ih fun value hmem => h value (List.mem_cons_of_mem _ hmem), lookup_insert, if_neg hne]

/-- What was added under a name is listed there, when nothing else was. -/
theorem lookup_insertEach_of_mem {entries : List (String × α)} (hmem : (name, value) ∈ entries)
    (hsame : ∀ other, (name, other) ∈ entries → other = value) (l : Listing α) :
    (insertEach entries l).lookup name = some value := by
  induction entries generalizing l with
  | nil => cases hmem
  | cons entry entries ih =>
      rw [insertEach, List.foldl_cons, ← insertEach]
      by_cases hlater : ∃ other, (name, other) ∈ entries
      · obtain ⟨other, hother⟩ := hlater
        have heq := hsame other (List.mem_cons_of_mem _ hother)
        exact ih (heq ▸ hother) (fun v hv => hsame v (List.mem_cons_of_mem _ hv)) _
      · obtain rfl | hmem := List.mem_cons.mp hmem
        · rw [lookup_insertEach_of_notMem (not_exists.mp hlater), lookup_insert, if_pos rfl]
        · exact absurd ⟨value, hmem⟩ hlater

/-- What is listed was added, or was there before. -/
theorem mem_or_lookup_of_insertEach {entries : List (String × α)}
    (h : (insertEach entries l).lookup name = some value) :
    (name, value) ∈ entries ∨ l.lookup name = some value := by
  induction entries generalizing l with
  | nil => exact .inr h
  | cons entry entries ih =>
      obtain hmem | hlookup := ih h
      · exact .inl (List.mem_cons_of_mem _ hmem)
      · rw [lookup_insert] at hlookup
        split at hlookup
        · next hname =>
            cases hlookup
            exact .inl (hname ▸ List.mem_cons_self)
        · exact .inr hlookup

theorem mem_insertEach {entries : List (String × α)} (h : entry ∈ insertEach entries l) :
    entry ∈ entries ∨ entry ∈ l := by
  induction entries generalizing l with
  | nil => exact .inr h
  | cons first entries ih =>
      obtain hmem | hmem := ih h
      · exact .inl (List.mem_cons_of_mem _ hmem)
      · obtain rfl | hmem := mem_insert hmem
        · exact .inl List.mem_cons_self
        · exact .inr hmem

/-- Under which names something is listed: those of what was added, and those from before. -/
theorem exists_lookup_insertEach_iff {entries : List (String × α)} :
    (∃ value, (insertEach entries l).lookup name = some value) ↔
      (∃ value, (name, value) ∈ entries) ∨ ∃ value, l.lookup name = some value := by
  induction entries generalizing l with
  | nil => simp [insertEach]
  | cons entry entries ih =>
      rw [insertEach, List.foldl_cons, ← insertEach, ih, lookup_insert]
      split
      · next hname =>
          have hadded : (name, entry.2) ∈ entry :: entries := hname ▸ List.mem_cons_self
          exact iff_of_true (.inr ⟨_, rfl⟩) (.inl ⟨_, hadded⟩)
      · next hne =>
          have hfirst : ∀ value, (name, value) ≠ entry := fun value heq => hne (heq ▸ rfl)
          simp only [List.mem_cons, hfirst, false_or]

/-- The names come in order, each once. -/
def Ordered (l : Listing α) : Prop := l.Pairwise fun a b => a.1 < b.1

theorem Ordered.nil : Ordered ([] : Listing α) := List.Pairwise.nil

theorem Ordered.insert (h : l.Ordered) (name : String) (value : α) :
    (insert name value l).Ordered := by
  induction l with
  | nil => exact List.pairwise_singleton _ _
  | cons head l ih =>
      obtain ⟨first, old⟩ := head
      obtain ⟨hfirst, hrest⟩ := List.pairwise_cons.mp h
      simp only [Listing.insert]
      split
      · next hlt =>
          refine List.pairwise_cons.mpr ⟨fun entry hentry => ?_, h⟩
          obtain rfl | hentry := List.mem_cons.mp hentry
          · exact hlt
          · exact String.lt_trans hlt (hfirst entry hentry)
      · next hge =>
          split
          · next heq =>
              subst heq
              exact List.pairwise_cons.mpr ⟨hfirst, hrest⟩
          · next hne =>
              refine List.pairwise_cons.mpr ⟨fun entry hentry => ?_, ih hrest⟩
              obtain rfl | hentry := mem_insert hentry
              · refine Classical.byContradiction fun hlt => hne ?_
                exact String.le_antisymm (String.not_lt.mp hlt) (String.not_lt.mp hge)
              · exact hfirst entry hentry

theorem Ordered.insertEach (h : l.Ordered) (entries : List (String × α)) :
    (insertEach entries l).Ordered := by
  induction entries generalizing l with
  | nil => exact h
  | cons entry entries ih => exact ih (h.insert entry.1 entry.2)

theorem lookup_eq_none_of_lt (h : ∀ entry ∈ l, name < entry.1) : l.lookup name = none := by
  refine List.lookup_eq_none_iff.mpr fun entry hentry => bne_iff_ne.mpr ?_
  intro heq
  exact String.lt_irrefl _ (heq ▸ h entry hentry)

theorem Ordered.lookup_of_mem (h : l.Ordered) (hmem : (name, value) ∈ l) :
    l.lookup name = some value := by
  induction l with
  | nil => cases hmem
  | cons head l ih =>
      obtain ⟨first, old⟩ := head
      obtain ⟨hfirst, hrest⟩ := List.pairwise_cons.mp h
      rw [lookup_cons]
      obtain heq | hmem := List.mem_cons.mp hmem
      · obtain ⟨rfl, rfl⟩ := Prod.mk.inj heq
        exact if_pos rfl
      · have hne : name ≠ first := by
          intro heq
          exact String.lt_irrefl _ (heq ▸ hfirst _ hmem)
        rw [if_neg hne]
        exact ih hrest hmem

/-- A listing in order is known by what it lists. -/
theorem Ordered.ext (h : l.Ordered) (h' : l'.Ordered)
    (heq : ∀ name, l.lookup name = l'.lookup name) : l = l' := by
  induction l generalizing l' with
  | nil =>
      cases l' with
      | nil => rfl
      | cons head' l' =>
          have hlookup := heq head'.1
          rw [List.lookup_nil, lookup_cons, if_pos rfl] at hlookup
          cases hlookup
  | cons head l ih =>
      cases l' with
      | nil =>
          have hlookup := heq head.1
          rw [List.lookup_nil, lookup_cons, if_pos rfl] at hlookup
          cases hlookup
      | cons head' l' =>
          obtain ⟨name, value⟩ := head
          obtain ⟨name', value'⟩ := head'
          obtain ⟨hfirst, hrest⟩ := List.pairwise_cons.mp h
          obtain ⟨hfirst', hrest'⟩ := List.pairwise_cons.mp h'
          have hmem : (name, value) ∈ (name', value') :: l' :=
            mem_of_lookup ((heq name).symm.trans (by rw [lookup_cons, if_pos rfl]))
          have hmem' : (name', value') ∈ (name, value) :: l :=
            mem_of_lookup ((heq name').trans (by rw [lookup_cons, if_pos rfl]))
          have hhead : (name, value) = (name', value') := by
            obtain hhead | hmem := List.mem_cons.mp hmem
            · exact hhead
            · obtain hhead | hmem' := List.mem_cons.mp hmem'
              · exact hhead.symm
              · exact absurd (hfirst _ hmem') (String.lt_asymm (hfirst' _ hmem))
          obtain ⟨rfl, rfl⟩ := Prod.mk.inj hhead
          refine congrArg _ (ih hrest hrest' fun other => ?_)
          by_cases hother : other = name
          · rw [hother, lookup_eq_none_of_lt hfirst, lookup_eq_none_of_lt hfirst']
          · have hlookup := heq other
            rwa [lookup_cons, lookup_cons, if_neg hother, if_neg hother] at hlookup

end Listing

namespace OutputBundle

/-- Dropping the files with a mark drops no other. -/
theorem lookup_dropMarked (mark : String) (b : OutputBundle) (name : String) :
    (b.dropMarked mark).lookup name = if name.startsWith mark then none else b.lookup name := by
  induction b with
  | nil => simp [dropMarked]
  | cons head b ih =>
      obtain ⟨other, file⟩ := head
      by_cases hmark : other.startsWith mark = true
      · have hdrop : dropMarked mark ((other, file) :: b) = dropMarked mark b :=
          List.filter_cons_of_neg (by simp [hmark])
        rw [hdrop, ih, Listing.lookup_cons]
        by_cases hname : name = other
        · rw [hname, if_pos hmark, if_pos hmark]
        · rw [if_neg hname]
      · have hkeep : dropMarked mark ((other, file) :: b) = (other, file) :: dropMarked mark b :=
          List.filter_cons_of_pos (by simp [hmark])
        rw [hkeep, Listing.lookup_cons, Listing.lookup_cons, ih]
        by_cases hname : name = other
        · rw [if_pos hname, if_pos hname, hname, if_neg hmark]
        · rw [if_neg hname, if_neg hname]

end OutputBundle

end StyleBundler
