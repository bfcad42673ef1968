import StyleBundler.Proofs.Sheet.Extraction

/-!
Named sheets in one text, whatever they hold. Their contents stand in the blocks as they
are, so what is found under a name depends on the sheets in front of it. Behind
self-contained sheets a name is always found; behind a block that stays open it never is;
and a text in a sheet in front can be made to answer for any name.
-/

namespace StyleBundler.Sheet

open Text

/-- Named sheets one behind the other. -/
def combine (sheets : List (String × String)) : String :=
  String.join (sheets.map fun s => namedBlock s.1 s.2)

theorem combine_cons (s : String × String) (sheets : List (String × String)) :
    combine (s :: sheets) = namedBlock s.1 s.2 ++ combine sheets := by
  rw [combine, List.map_cons, String.join_cons, combine]

/-- The sheets in front of the first one of a name. -/
def before (name : String) (sheets : List (String × String)) : List (String × String) :=
  sheets.takeWhile fun s => s.1 != name

theorem before_cons_self (name content : String) (sheets : List (String × String)) :
    before name ((name, content) :: sheets) = [] := by
  simp [before]

theorem before_cons_ne {name : String} {s : String × String} (h : s.1 ≠ name)
    (sheets : List (String × String)) : before name (s :: sheets) = s :: before name sheets := by
  simp [before, h]

/-- The block around a text ends in that text, or at the brace behind it. -/
def EndsBlock (css : List Char) : Prop :=
  readBraces .plain 0 (css ++ ['}']) = none

instance (css : List Char) : Decidable (EndsBlock css) :=
  inferInstanceAs (Decidable (_ = _))

/-- The part of a text that stands in the block around it. -/
def ownBlock (css : List Char) : List Char :=
  (splitBlock .plain 0 (css ++ ['}'])).1

theorem SelfContained.endsBlock {css : List Char} (h : SelfContained css) : EndsBlock css := by
  obtain ⟨mode, hm, hread⟩ := selfContained_iff.mp h
  simp [EndsBlock, readBraces_append, hread, readBraces, hm]

theorem SelfContained.ownBlock_eq {css : List Char} (h : SelfContained css) :
    ownBlock css = css := by
  rw [ownBlock, splitBlock_selfContained h]

theorem EndsBlock.splitBlock_append {css : List Char} (h : EndsBlock css) (rest : List Char) :
    (splitBlock .plain 0 (css ++ '}' :: rest)).1 = ownBlock css := by
  rw [List.append_cons, splitBlock_append_of_none h, ownBlock]

theorem EndsBlock.selfContained_ownBlock {css : List Char} (h : EndsBlock css) :
    SelfContained (ownBlock css) :=
  selfContained_iff.mpr (exists_readBraces_block h)

/-- A text that closes only what it opens and ends outside of strings and comments. It may
leave blocks open. -/
def OnlyOpens (css : List Char) : Prop :=
  (readBraces .plain 0 css).any (fun s => s.1.isCode) = true

instance (css : List Char) : Decidable (OnlyOpens css) :=
  inferInstanceAs (Decidable (_ = true))

theorem OnlyOpens.exists_readBraces {css : List Char} (h : OnlyOpens css) :
    ∃ mode : Mode, mode.isCode = true ∧
      ∃ depth, readBraces .plain 0 css = some (mode, depth) := by
  unfold OnlyOpens at h
  cases hread : readBraces .plain 0 css with
  | none => simp [hread] at h
  | some s => exact ⟨s.1, by simpa [hread] using h, s.2, rfl⟩

theorem readBraces_preludeChars {text : List Char}
    (h : ∀ c ∈ text, isPreludeChar c = true ∧ c ≠ '}') (depth : Nat) :
    readBraces .plain depth text = some (.plain, depth) := by
  induction text with
  | nil => rfl
  | cons c text ih =>
      obtain ⟨hc, hclose⟩ := h c (by simp)
      obtain ⟨hslash, hdouble, hsingle, -, hbrace⟩ := isPreludeChar_iff.mp hc
      simpa [readBraces, Mode.next, Mode.ofCode, hclose, hslash, hdouble, hsingle, hbrace]
        using ih fun c hc => h c (List.mem_cons_of_mem _ hc)

/-- Behind a named block, as many more blocks are open as its content left open. -/
theorem readBraces_namedBlock {name content : String}
    (hname : IsPlainName name.toList ∧ '}' ∉ name.toList) {mode : Mode} (hm : mode.isCode = true)
    {depth : Nat} (h : readBraces .plain 0 content.toList = some (mode, depth)) (outer : Nat) :
    readBraces .plain outer (namedBlock name content).toList = some (.plain, depth + outer) := by
  have hcondition : ∀ c ∈ (condition name).toList ++ [' '], isPreludeChar c = true ∧ c ≠ '}' := by
    have hsigns : "@supports sheet() ".toList.all (fun c => isPreludeChar c && c != '}') = true := by
      decide
    intro c hc
    rcases mem_condition hc with hc | hc
    · exact ⟨(hname.1.2 c hc).1, ne_of_mem_of_not_mem hc hname.2⟩
    · simpa only [Bool.and_eq_true, bne_iff_ne] using List.all_eq_true.mp hsigns c hc
  have hread : readBraces .plain (outer + 1) content.toList = some (mode, depth + outer + 1) := by
    simpa only [Nat.zero_add, Nat.add_assoc] using readBraces_add h (outer + 1)
  rw [toList_namedBlock, readBraces_append, readBraces_preludeChars hcondition, Option.bind_some]
  change readBraces .plain (outer + 1) (content.toList ++ ['}', '\n']) = _
  rw [readBraces_append, hread]
  simp [readBraces, hm, Mode.next, Mode.ofCode]

/-- Where named blocks stand in an open block, it stays open. -/
theorem exists_readBraces_combine {sheets : List (String × String)}
    (hname : ∀ s ∈ sheets, IsPlainName s.1.toList ∧ '}' ∉ s.1.toList)
    (h : ∀ s ∈ sheets, OnlyOpens s.2.toList) (outer : Nat) :
    ∃ depth, readBraces .plain outer (combine sheets).toList = some (.plain, depth) := by
  induction sheets generalizing outer with
  | nil => exact ⟨outer, rfl⟩
  | cons s sheets ih =>
      obtain ⟨mode, hm, depth, hread⟩ := (h s (by simp)).exists_readBraces
      obtain ⟨depth', hrest⟩ := ih (fun s hs => hname s (List.mem_cons_of_mem _ hs))
        (fun s hs => h s (List.mem_cons_of_mem _ hs)) (depth + outer)
      refine ⟨depth', ?_⟩
      rw [combine_cons, String.toList_append, readBraces_append,
        readBraces_namedBlock (hname s (by simp)) hm hread, Option.bind_some, hrest]

/-- The block around each sheet that is not self-contained holds everything behind it: no
brace closes it, be it that a block, a string or a comment stays open. -/
def OpenToEnd : List (String × String) → Prop
  | [] => True
  | s :: sheets =>
      (SelfContained s.2.toList ∨
        (readBraces .plain 0 (s.2.toList ++ '}' :: '\n' :: (combine sheets).toList)).isSome = true) ∧
      OpenToEnd sheets

theorem openToEnd_of_onlyOpens {sheets : List (String × String)}
    (hname : ∀ s ∈ sheets, IsPlainName s.1.toList ∧ '}' ∉ s.1.toList)
    (h : ∀ s ∈ sheets, OnlyOpens s.2.toList) : OpenToEnd sheets := by
  induction sheets with
  | nil => trivial
  | cons s sheets ih =>
      have htail := fun s hs => hname s (List.mem_cons_of_mem _ hs)
      have hopen := fun s hs => h s (List.mem_cons_of_mem _ hs)
      refine ⟨?_, ih htail hopen⟩
      obtain ⟨mode, hm, depth, hread⟩ := (h s List.mem_cons_self).exists_readBraces
      cases depth with
      | zero => exact .inl (selfContained_iff.mpr ⟨mode, hm, hread⟩)
      | succ depth =>
          obtain ⟨depth', hrest⟩ := exists_readBraces_combine htail hopen depth
          exact .inr (by simp [readBraces_append, hread, readBraces, hm, Mode.next, Mode.ofCode, hrest])

section Step

variable {name n content : String} {sheets : List (String × String)}

theorem extract?_cons_self (hname : IsPlainName name.toList) :
    extract? (parse (combine ((name, content) :: sheets))) name =
      some (rulesFrom [] (trim
        (splitBlock .plain 0 (content.toList ++ '}' :: '\n' :: (combine sheets).toList)).1)) := by
  rw [extract?, combine_cons, parse, String.toList_append, rulesFrom_namedBlock hname,
    List.findSome?_cons, blockNamed?_namedRule hname]
  simp [parse]

theorem extract?_cons_ne (hn : IsPlainName n.toList) (hne : n ≠ name)
    (h : SelfContained content.toList) :
    extract? (parse (combine ((n, content) :: sheets))) name =
      extract? (parse (combine sheets)) name := by
  rw [extract?, combine_cons, parse, String.toList_append, rulesFrom_selfContainedBlock hn h,
    List.findSome?_cons, blockNamed?_namedRule hn, if_neg hne]
  rfl

/-- A block that no brace closes holds all that stands behind it. -/
theorem extract?_cons_open (hn : IsPlainName n.toList) (hne : n ≠ name) {mode : Mode} {depth : Nat}
    (h : readBraces .plain 0 (content.toList ++ '}' :: '\n' :: (combine sheets).toList) =
      some (mode, depth)) :
    extract? (parse (combine ((n, content) :: sheets))) name = none := by
  have hall := splitBlock_append h []
  rw [List.append_nil] at hall
  rw [extract?, combine_cons, parse, String.toList_append, rulesFrom_namedBlock hn, hall,
    List.findSome?_cons, blockNamed?_namedRule hn, if_neg hne]
  simp [splitBlock, rulesFrom]

end Step

section Run

variable {name : String} {sheets : List (String × String)}

/-- The first sheet of a name behind self-contained sheets is found. Of the other sheets,
its rules depend on those behind it only, and on none if its content ends its block. -/
theorem exists_extract? (hname : ∀ s ∈ sheets, IsPlainName s.1.toList) {content : String}
    (hmem : (name, content) ∈ sheets) (hone : ∀ s ∈ sheets, s.1 = name → s.2 = content)
    (h : ∀ s ∈ before name sheets, SelfContained s.2.toList) :
    ∃ rules, extract? (parse (combine sheets)) name = some rules ∧
      (EndsBlock content.toList → rules = rulesFrom [] (ownBlock content.toList)) := by
  induction sheets with
  | nil => cases hmem
  | cons s sheets ih =>
      obtain ⟨n, c⟩ := s
      by_cases hne : n = name
      · subst hne
        obtain rfl : c = content := hone _ List.mem_cons_self rfl
        refine ⟨_, extract?_cons_self (hname _ List.mem_cons_self), fun hend => ?_⟩
        rw [hend.splitBlock_append, rulesFrom_trim hend.selfContained_ownBlock]
      · rw [before_cons_ne hne] at h
        rw [extract?_cons_ne (hname _ List.mem_cons_self) hne (h _ List.mem_cons_self)]
        refine ih (fun s hs => hname s (List.mem_cons_of_mem _ hs)) ?_
          (fun s hs => hone s (List.mem_cons_of_mem _ hs))
          (fun s hs => h s (List.mem_cons_of_mem _ hs))
        rcases List.mem_cons.mp hmem with heq | hmem
        · exact absurd (congrArg Prod.fst heq).symm hne
        · exact hmem

/-- Where blocks that are left open stay open, a sheet is found only behind self-contained
ones: the block that is left open in front of it holds it too. -/
theorem isSome_extract?_iff (hname : ∀ s ∈ sheets, IsPlainName s.1.toList)
    (hopen : OpenToEnd sheets) (hmem : name ∈ sheets.map Prod.fst) :
    (extract? (parse (combine sheets)) name).isSome ↔
      ∀ s ∈ before name sheets, SelfContained s.2.toList := by
  induction sheets with
  | nil => cases hmem
  | cons s sheets ih =>
      obtain ⟨n, c⟩ := s
      have hplain := hname _ List.mem_cons_self
      by_cases hne : n = name
      · subst hne
        simp [extract?_cons_self hplain, before_cons_self]
      rw [before_cons_ne hne, List.forall_mem_cons]
      by_cases hself : SelfContained c.toList
      · have hrest : name ∈ sheets.map Prod.fst := by
          rcases List.mem_cons.mp hmem with heq | hrest
          · exact absurd heq.symm hne
          · exact hrest
        rw [extract?_cons_ne hplain hne hself,
          ih (fun s hs => hname s (List.mem_cons_of_mem _ hs)) hopen.2 hrest]
        simp [hself]
      · obtain ⟨⟨mode, depth⟩, hall⟩ := Option.isSome_iff_exists.mp (hopen.1.resolve_left hself)
        simp [extract?_cons_open hplain hne hall, hself]

end Run

/-- A text that closes the block around it and opens one under another name. -/
def forged (name css : String) : String :=
  "\x7d\n" ++ ("@supports sheet(" ++ name ++ ") \x7b" ++ css)

theorem namedBlock_forged (n name css : String) :
    namedBlock n (forged name css) = namedBlock n "" ++ namedBlock name css := by
  unfold namedBlock forged
  simp only [String.append_empty, String.append_assoc]

/-- A sheet in front of another can give any rules under the name of the other. -/
theorem extract?_forged {n name : String} (hn : IsPlainName n.toList)
    (hname : IsPlainName name.toList) (hne : n ≠ name) {css : String}
    (h : SelfContained css.toList) (sheets : List (String × String)) :
    extract? (parse (combine ((n, forged name css) :: sheets))) name = some (parse css) := by
  have hcombine : combine ((n, forged name css) :: sheets) =
      combine ((n, "") :: (name, css) :: sheets) := by
    simp only [combine_cons, namedBlock_forged, String.append_assoc]
  rw [hcombine, extract?_cons_ne hn hne (.inl rfl), extract?_cons_self hname,
    splitBlock_selfContained h, rulesFrom_trim h, parse]

end StyleBundler.Sheet
