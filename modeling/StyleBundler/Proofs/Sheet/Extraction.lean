import StyleBundler.Proofs.Sheet.Rule
import StyleBundler.Sheet.Extraction

/-!
A named block read back. It is one rule up to the brace that closes it, whose prelude
gives the name again (`rulesFrom_namedBlock`); around a self-contained sheet that brace
is its own last one, and the rule holds that sheet and nothing else.
-/

namespace StyleBundler.Sheet

open Text

/-- A name that a condition can hold as it is: on one line, and without a sign that the
reading of rules knows. -/
def IsPlainName (name : List Char) : Prop :=
  name ≠ [] ∧ ∀ c ∈ name, isPreludeChar c = true ∧ c ≠ '\n'

/-- What stands before the block of a named sheet. -/
def condition (name : String) : String := "@supports sheet(" ++ name ++ ")"

theorem toList_condition (name : String) :
    (condition name).toList = "@supports sheet(".toList ++ (name.toList ++ [')']) := by
  unfold condition
  rw [String.toList_append, String.toList_append, List.append_assoc]
  rfl

theorem toList_namedBlock (name content : String) :
    (namedBlock name content).toList =
      (condition name).toList ++ [' '] ++ '{' :: (content.toList ++ ['}', '\n']) := by
  have hopen : ") \x7b".toList = [')', ' ', '{'] := rfl
  have hclose : "\x7d\n".toList = ['}', '\n'] := rfl
  unfold namedBlock
  simp only [toList_condition, String.toList_append, hopen, hclose, List.append_assoc,
    List.cons_append, List.nil_append]

/-- What stands before the brace of a named block, name apart. -/
theorem mem_condition {name : String} {c : Char} (h : c ∈ (condition name).toList ++ [' ']) :
    c ∈ name.toList ∨ c ∈ "@supports sheet() ".toList := by
  have hopen : "@supports sheet(".toList ⊆ "@supports sheet() ".toList := by decide
  have hclose : [')', ' '] ⊆ "@supports sheet() ".toList := by decide
  simp only [toList_condition, List.append_assoc, List.mem_append] at h
  rcases h with h | h | h
  · exact .inr (hopen h)
  · exact .inl h
  · exact .inr (hclose (List.mem_append.mpr h))

theorem conditionName?_condition {name : String} (h : IsPlainName name.toList) :
    conditionName? (condition name).toList = some name.toList := by
  have hcond : (condition name).toList =
      "@supports".toList ++ (' ' :: ("sheet(".toList ++ (name.toList ++ [')']))) := by
    rw [toList_condition]
    rfl
  have hstart : after? "@supports".toList (condition name).toList =
      some (' ' :: ("sheet(".toList ++ (name.toList ++ [')']))) :=
    after?_eq_some_iff.mpr hcond
  have hblank : skipBlanks? (' ' :: ("sheet(".toList ++ (name.toList ++ [')']))) =
      some ("sheet(".toList ++ (name.toList ++ [')'])) := by
    rfl
  have hopen : after? "sheet(".toList ("sheet(".toList ++ (name.toList ++ [')'])) =
      some (name.toList ++ [')']) :=
    after?_eq_some_iff.mpr rfl
  have hline : '\n' ∉ name.toList := fun hc => (h.2 '\n' hc).2 rfl
  simp only [conditionName?, hstart, hblank, hopen, Option.bind_eq_bind, Option.bind_some,
    List.getLast?_concat, List.dropLast_concat]
  simp [h.1, hline]

/-- The rule that the block of a named sheet makes. -/
def namedRule (name content : String) : Rule :=
  ⟨condition name, some (String.ofList (trim content.toList))⟩

theorem blockNamed?_namedRule {name : String} (h : IsPlainName name.toList)
    (wanted content : String) :
    blockNamed? wanted (namedRule name content) =
      if name = wanted then some (String.ofList (trim content.toList)) else none := by
  simp [blockNamed?, namedRule, conditionName?_condition h, String.toList_inj]

/-- A named block is a rule up to the brace that closes it, wherever its content and the
text behind it put that brace. -/
theorem rulesFrom_namedBlock {name : String} (hname : IsPlainName name.toList)
    (content : String) (rest : List Char) :
    let block := splitBlock .plain 0 (content.toList ++ '}' :: '\n' :: rest)
    rulesFrom [] ((namedBlock name content).toList ++ rest) =
      namedRule name (String.ofList block.1) :: rulesFrom [] block.2 := by
  have hchars : ∀ c ∈ (condition name).toList ++ [' '], isPreludeChar c = true := by
    have hsigns : "@supports sheet() ".toList.all isPreludeChar = true := by decide
    intro c hc
    rcases mem_condition hc with hc | hc
    · exact (hname.2 c hc).1
    · exact List.all_eq_true.mp hsigns c hc
  have htrim : trim ((condition name).toList ++ [' ']) = (condition name).toList := by
    have hfirst : (condition name).toList.head? = some '@' := by
      rw [toList_condition]
      rfl
    have hlast : (condition name).toList.getLast? = some ')' := by
      rw [toList_condition, ← List.append_assoc]
      exact List.getLast?_concat
    rw [trim_append_blanks (List.all_eq_true.mp (by decide))]
    apply trim_eq_self
    · simp [hfirst, isBlank]
    · simp [hlast, isBlank]
  rw [toList_namedBlock, List.append_assoc, rulesFrom_preludeChars hchars, List.cons_append,
    List.append_assoc, rulesFrom_brace]
  simp only [blockRule, namedRule, List.append_nil, List.reverse_reverse, htrim,
    String.ofList_toList, String.toList_ofList, List.cons_append, List.nil_append]

/-- The block of a self-contained sheet is one rule, and what stands behind it makes the
same rules as on its own. -/
theorem rulesFrom_selfContainedBlock {name content : String} (hname : IsPlainName name.toList)
    (h : SelfContained content.toList) (rest : List Char) :
    rulesFrom [] ((namedBlock name content).toList ++ rest) =
      namedRule name content :: rulesFrom [] rest := by
  have hline : rulesFrom [] ([('\n' : Char)] ++ rest) = rulesFrom [] rest := by
    rw [rulesFrom_preludeChars (List.all_eq_true.mp (by decide))]
    exact rulesFrom_append_blanks (List.all_eq_true.mp (by decide)) [] rest
  rw [rulesFrom_namedBlock hname, splitBlock_selfContained h, String.ofList_toList]
  exact congrArg _ hline

end StyleBundler.Sheet
