import StyleBundler.Asset

/-!
The signs that asset names are made of. Neither a scheme nor a quote, a blank or a
bracket is among them, so that a name stands in a specifier, in a script literal and in
a stylesheet condition as it is.
-/

namespace StyleBundler

namespace Digest

theorem mem_hexByte {c : Char} {b : UInt8} (h : c ∈ hexByte b) :
    c ∈ "0123456789abcdef".toList := by
  have hget : ∀ i : Nat, ("0123456789abcdef".toList.getD i '0') ∈ "0123456789abcdef".toList := by
    intro i
    rw [List.getD_eq_getElem?_getD]
    cases hi : "0123456789abcdef".toList[i]? with
    | none => decide
    | some d => exact List.mem_of_getElem? hi
  simp only [hexByte, List.mem_cons, List.not_mem_nil, or_false] at h
  rcases h with rfl | rfl
  · exact hget _
  · exact hget _

theorem mem_shortHash {c : Char} {content : List UInt8} (h : c ∈ (shortHash content).toList) :
    c ∈ "0123456789abcdef".toList := by
  simp only [shortHash, String.toList_ofList, List.mem_flatMap] at h
  obtain ⟨b, -, hb⟩ := h
  exact mem_hexByte hb

end Digest

namespace Asset

/-- Letters, digits, underscore, hyphen and dot. -/
def isNameChar (c : Char) : Bool := c.isAlphanum || c == '_' || c == '-' || c == '.'

theorem isNameChar_nameOf (staging : Bool) (content : String) :
    ∀ c ∈ (nameOf staging (Digest.shortHashText content)).toList, isNameChar c = true := by
  intro c hc
  simp only [nameOf, String.toList_append, List.mem_append] at hc
  have hdigits : "0123456789abcdef".toList.all isNameChar = true := by decide
  have hstage : (if staging then stagingMark else "").toList.all isNameChar = true := by
    cases staging <;> decide
  rcases hc with (((hc | hc) | hc) | hc) | hc
  · exact List.all_eq_true.mp hstage c hc
  · exact List.all_eq_true.mp (by decide) c hc
  · exact List.all_eq_true.mp (by decide) c hc
  · exact List.all_eq_true.mp hdigits c (Digest.mem_shortHash hc)
  · exact List.all_eq_true.mp (by decide) c hc

theorem nameIn_reference (a : Asset) : nameIn a.reference = a.name := by
  have h : Text.after? ['.', '/'] a.reference.toList = some a.name.toList := by
    rw [Text.after?_eq_some_iff, reference, String.toList_append]
    rfl
  simp only [nameIn, h, String.ofList_toList]

end Asset
end StyleBundler
