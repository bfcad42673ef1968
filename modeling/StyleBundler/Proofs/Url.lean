import Mathlib.Data.List.TakeWhile
import StyleBundler.Url

/-!
Schemes and readers of URLs. A scheme is told in two ways: by a reader of URLs and, where that
reads nothing, by what stands in front of the first colon. As long as the reader keeps the scheme
that a text starts with (`KeepsScheme`), it does not matter which of the two tells it, nor what
follows the colon (`isUnderBy_iff`). The reader of this library does (`keepsScheme_readScheme?`),
and specifiers are under a scheme by it (`isUnderBy_readScheme?`). Each of them has a colon
(`colon_mem_of_isUnder`).
-/

namespace StyleBundler.Url

open Text

/-- A letter, then letters, digits, plus, minus and dot. -/
def IsScheme : List Char → Prop
  | [] => False
  | c :: cs => c.isAlpha = true ∧ ∀ d ∈ cs, isSchemeChar d = true

instance : (cs : List Char) → Decidable (IsScheme cs)
  | [] => .isFalse id
  | c :: cs =>
      -- Along the text: characters are finitely many, so that all could be looked through too.
      have := List.decidableBAll (isSchemeChar · = true) cs
      inferInstanceAs (Decidable (c.isAlpha = true ∧ ∀ d ∈ cs, isSchemeChar d = true))

theorem isSchemeChar_of_isAlpha {c : Char} (h : c.isAlpha = true) : isSchemeChar c = true := by
  simp [isSchemeChar, Char.isAlphanum, h]

theorem not_le_space_of_isSchemeChar {c : Char} (h : isSchemeChar c = true) : ¬c ≤ ' ' := by
  intro hspace
  have hlow : ∀ n < 33, isSchemeChar (Char.ofNat n) = false := by decide
  have hc := hlow c.toNat (Nat.lt_succ_of_le hspace)
  rw [Char.ofNat_toNat, h] at hc
  cases hc

namespace IsScheme

variable {scheme : List Char}

theorem forall_isSchemeChar (h : IsScheme scheme) : ∀ c ∈ scheme, isSchemeChar c = true := by
  cases scheme with
  | nil => nofun
  | cons c cs => exact List.forall_mem_cons.mpr ⟨isSchemeChar_of_isAlpha h.1, h.2⟩

theorem forall_ne_colon (h : IsScheme scheme) : ∀ c ∈ scheme, (c != ':') = true := by
  intro c hc
  have hscheme := h.forall_isSchemeChar c hc
  rw [bne_iff_ne]
  rintro rfl
  exact absurd hscheme (by decide)

end IsScheme

theorem splitScheme?_eq_some_iff {cs scheme rest : List Char} :
    splitScheme? cs = some (scheme, rest) ↔ IsScheme scheme ∧ cs = scheme ++ ':' :: rest := by
  constructor
  · intro h
    unfold splitScheme? at h
    split at h
    · next c front sign back htake hdrop =>
        split at h
        · next hscheme =>
            cases h
            rw [Bool.and_eq_true, List.all_eq_true] at hscheme
            have hhead := List.head?_dropWhile_not (· != ':') cs
            rw [hdrop] at hhead
            obtain rfl : ':' = sign := (bne_eq_false_iff_eq.mp hhead).symm
            refine ⟨hscheme, ?_⟩
            rw [← htake, ← hdrop, List.takeWhile_append_dropWhile]
        · cases h
    · cases h
  · rintro ⟨hscheme, rfl⟩
    have htake : (scheme ++ ':' :: rest).takeWhile (· != ':') = scheme := by
      rw [List.takeWhile_append_of_pos hscheme.forall_ne_colon]
      simp
    have hdrop : (scheme ++ ':' :: rest).dropWhile (· != ':') = ':' :: rest := by
      rw [List.dropWhile_append_of_pos hscheme.forall_ne_colon]
      simp
    cases scheme with
    | nil => exact hscheme.elim
    | cons c front =>
        rw [splitScheme?, htake, hdrop]
        simp [hscheme.1, List.all_eq_true.mpr hscheme.2]

theorem dropWhile_append_cons {p : Char → Bool} {c : Char} (hc : p c = false) (a b : List Char) :
    (a ++ c :: b).dropWhile p = a.dropWhile p ++ c :: b := by
  induction a with
  | nil => simp [hc]
  | cons d a ih =>
      rw [List.cons_append, List.dropWhile_cons, List.dropWhile_cons, ih]
      split <;> rfl

/-- A reader of URLs drops nothing in front of the colon behind a scheme. -/
theorem IsScheme.exists_clean {scheme : List Char} (h : IsScheme scheme) (rest : List Char) :
    ∃ rest', clean (scheme ++ ':' :: rest) = scheme ++ ':' :: rest' := by
  have hchars := h.forall_isSchemeChar
  have hfront : (scheme ++ ':' :: rest).dropWhile (· ≤ ' ') = scheme ++ ':' :: rest := by
    cases scheme with
    | nil => exact h.elim
    | cons c front =>
        have hspace := not_le_space_of_isSchemeChar (hchars c List.mem_cons_self)
        exact List.dropWhile_cons_of_neg (by simpa using hspace)
  have htrim : trimBoth (· ≤ ' ') (scheme ++ ':' :: rest) =
      scheme ++ ':' :: (rest.reverse.dropWhile (· ≤ ' ')).reverse := by
    rw [trimBoth, hfront, List.reverse_append, List.reverse_cons, List.append_assoc,
      List.singleton_append, dropWhile_append_cons (by decide)]
    simp
  have hkeep : scheme.filter (fun c => c != '\t' && c != '\n' && c != '\r') = scheme := by
    rw [List.filter_eq_self]
    intro c hc
    have hspace := not_le_space_of_isSchemeChar (hchars c hc)
    have hne : ∀ d : Char, d ≤ ' ' → c ≠ d := fun d hd heq => hspace (heq ▸ hd)
    simp [hne '\t' (by decide), hne '\n' (by decide), hne '\r' (by decide)]
  exact ⟨_, by rw [clean, htrim, List.filter_append, hkeep]; rfl⟩

theorem colon_mem_of_splitScheme? {cs : List Char} {parts : List Char × List Char}
    (h : splitScheme? cs = some parts) : ':' ∈ cs := by
  obtain ⟨-, rfl⟩ := splitScheme?_eq_some_iff.mp h
  exact List.mem_append_right _ List.mem_cons_self

theorem mem_of_mem_clean {c : Char} {cs : List Char} (h : c ∈ clean cs) : c ∈ cs := by
  have htrim := (List.mem_filter.mp h).1
  rw [trimBoth, List.mem_reverse] at htrim
  exact List.dropWhile_subset _ (List.mem_reverse.mp (List.dropWhile_subset _ htrim))

theorem colon_mem_of_isUnder {schemes : List String} {specifier : String}
    (h : isUnder schemes specifier = true) : ':' ∈ specifier.toList := by
  unfold isUnder at h
  split at h
  · cases h
  · next hscheme =>
      unfold scheme? at hscheme
      split at hscheme
      · next hsplit => exact colon_mem_of_splitScheme? hsplit
      · split at hscheme
        · next hsplit => exact mem_of_mem_clean (colon_mem_of_splitScheme? hsplit)
        · cases hscheme

/-! Readers of URLs -/

/-- The scheme of a text that reads as a URL, in small letters. -/
def readScheme? (cs : List Char) : Option (List Char) :=
  match splitScheme? (clean cs) with
  | some (scheme, rest) =>
      let scheme := scheme.map Char.toLower
      if isValidRest (String.ofList scheme) rest then some scheme else none
  | none => none

/-- What a reader of URLs gives for a text that starts with a scheme and a colon, if anything, is
that scheme in small letters. -/
def KeepsScheme (read? : List Char → Option (List Char)) : Prop :=
  ∀ scheme rest found, IsScheme scheme → read? (scheme ++ ':' :: rest) = some found →
    found = scheme.map Char.toLower

/-- Whether a specifier is under one of the given schemes, by a reader of URLs and, where that
reads nothing, by what stands in front of the first colon. -/
def isUnderBy (read? : List Char → Option (List Char)) (schemes : List String)
    (specifier : String) : Bool :=
  match (read? specifier.toList).or ((splitScheme? specifier.toList).map Prod.fst) with
  | none => false
  | some scheme => schemes.any fun s => sameScheme (trimEnd (· == ':') s.toList) scheme

theorem keepsScheme_readScheme? : KeepsScheme readScheme? := by
  intro scheme rest found hscheme hread
  obtain ⟨rest', hclean⟩ := hscheme.exists_clean rest
  rw [readScheme?, hclean, splitScheme?_eq_some_iff.mpr ⟨hscheme, rfl⟩] at hread
  dsimp only at hread
  split at hread
  · exact (Option.some.inj hread).symm
  · cases hread

theorem sameScheme_map_toLower (a b : List Char) :
    sameScheme a (b.map Char.toLower) = sameScheme a b := by
  have hlower : ∀ c : Char, c.toLower.toLower = c.toLower := by
    intro c
    by_cases hupper : c.val ≥ 'A'.val ∧ c.val ≤ 'Z'.val
    · have hsmall : ¬(c.toLower.val ≥ 'A'.val ∧ c.toLower.val ≤ 'Z'.val) := by
        have hval : c.toLower.val = c.val + ('a'.val - 'A'.val) :=
          congrArg Char.val (dif_pos hupper)
        rw [hval]
        simp only [ge_iff_le, UInt32.le_iff_toNat_le, UInt32.toNat_add, UInt32.toNat_sub,
          UInt32.reduceToNat, Char.reduceVal] at hupper ⊢
        omega
      exact dif_neg hsmall
    · have hsame : c.toLower = c := dif_neg hupper
      rw [hsame, hsame]
  simp [sameScheme, Function.comp_def, hlower]

/-- By a reader that keeps schemes it does not matter what follows the colon. -/
theorem KeepsScheme.isUnderBy_append {read? : List Char → Option (List Char)}
    (h : KeepsScheme read?) (schemes : List String) {specifier : String} {scheme rest : List Char}
    (hscheme : IsScheme scheme) (hspecifier : specifier.toList = scheme ++ ':' :: rest) :
    isUnderBy read? schemes specifier =
      schemes.any fun s => sameScheme (trimEnd (· == ':') s.toList) scheme := by
  rw [isUnderBy, hspecifier, splitScheme?_eq_some_iff.mpr ⟨hscheme, rfl⟩]
  cases hread : read? (scheme ++ ':' :: rest) with
  | none => rfl
  | some found =>
      rw [h _ _ _ hscheme hread]
      simp only [Option.some_or, sameScheme_map_toLower]

/-- A text that does not start with a scheme and a colon, and that is no URL, is under none. -/
theorem isUnderBy_eq_false {read? : List Char → Option (List Char)} (schemes : List String)
    {specifier : String} (hread : read? specifier.toList = none)
    (hstart : splitScheme? specifier.toList = none) : isUnderBy read? schemes specifier = false := by
  rw [isUnderBy, hread, hstart]
  rfl

theorem isUnderBy_readScheme? : isUnderBy readScheme? = isUnder := by
  funext schemes specifier
  rw [isUnder, scheme?]
  cases hsplit : splitScheme? specifier.toList with
  | some parts =>
      obtain ⟨hscheme, hcs⟩ := splitScheme?_eq_some_iff.mp hsplit
      exact keepsScheme_readScheme?.isUnderBy_append schemes hscheme hcs
  | none =>
      rw [isUnderBy, hsplit, readScheme?, Option.map_none, Option.or_none]
      cases splitScheme? (clean specifier.toList) with
      | none => rfl
      | some parts =>
          cases hrest : isValidRest (String.ofList (parts.1.map Char.toLower)) parts.2 with
          | true => simp only [hrest, if_true, sameScheme_map_toLower]
          | false => simp only [hrest, Bool.false_eq_true, if_false]

/-- By a reader that keeps schemes, a specifier that starts with a scheme and a colon is under the
schemes that are written like it, but for case and for colons at the end, and one that starts with
no scheme is under none unless it reads as a URL. The specifiers of a module go by such a reader. -/
theorem isUnderBy_iff {read? : List Char → Option (List Char)} (h : KeepsScheme read?)
    (schemes : List String) :
    (∀ scheme rest : String, IsScheme scheme.toList →
      (isUnderBy read? schemes (scheme ++ ":" ++ rest) = true ↔
        ∃ s ∈ schemes, (trimEnd (· == ':') s.toList).map Char.toLower =
          scheme.toList.map Char.toLower)) ∧
      (∀ specifier : String,
        (¬∃ scheme rest, IsScheme scheme ∧ specifier.toList = scheme ++ ':' :: rest) →
        read? specifier.toList = none → isUnderBy read? schemes specifier = false) ∧
      KeepsScheme readScheme? ∧ isUnderBy readScheme? schemes = isUnder schemes := by
  refine ⟨?starts, ?other, keepsScheme_readScheme?, congrFun isUnderBy_readScheme? schemes⟩
  case starts =>
    intro scheme rest hscheme
    have hspecifier : (scheme ++ ":" ++ rest).toList = scheme.toList ++ ':' :: rest.toList := by
      simp
    rw [h.isUnderBy_append schemes hscheme hspecifier]
    simp [sameScheme]
  case other =>
    intro specifier hstart hread
    refine isUnderBy_eq_false schemes hread (Option.eq_none_iff_forall_ne_some.mpr ?_)
    rintro ⟨scheme, rest⟩ hsplit
    exact hstart ⟨scheme, rest, splitScheme?_eq_some_iff.mp hsplit⟩

/-- A text under a scheme that is no URL for its port, one that is a URL, and one that starts with no
scheme. -/
theorem isUnderBy_iff_malformed :
    let schemes := ["Data:", "https::"]
    let malformed := "HTTPS" ++ ":" ++ "//[::1]:99999/c.css"
    let whole := "data" ++ ":" ++ "text/css,.a{}"
    KeepsScheme readScheme? ∧
      readScheme? malformed.toList = none ∧ isUnderBy readScheme? schemes malformed = true ∧
      readScheme? whole.toList = some "data".toList ∧
      isUnderBy readScheme? schemes whole = true ∧
      readScheme? "./a:b.css".toList = none ∧
      isUnderBy readScheme? schemes "./a:b.css" = false := by
  intro schemes malformed whole
  obtain ⟨hstarts, hother, -⟩ := isUnderBy_iff keepsScheme_readScheme? schemes
  have hmalformed : readScheme? malformed.toList = none := by decide +kernel
  have hwhole : readScheme? whole.toList = some "data".toList := by decide +kernel
  have hfile : readScheme? "./a:b.css".toList = none := by decide +kernel
  refine ⟨keepsScheme_readScheme?, hmalformed,
    (hstarts "HTTPS" _ (by decide)).mpr ⟨"https::", by decide, by decide⟩, hwhole,
    (hstarts "data" _ (by decide)).mpr ⟨"Data:", by decide, by decide⟩, hfile,
    hother _ ?_ hfile⟩
  rintro ⟨scheme, rest, hsplit⟩
  have hnone : splitScheme? "./a:b.css".toList = none := by decide
  rw [splitScheme?_eq_some_iff.mpr hsplit] at hnone
  cases hnone

end StyleBundler.Url
