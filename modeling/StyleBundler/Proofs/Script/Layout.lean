import Mathlib.Data.List.Chain
import StyleBundler.Proofs.Script.Placing

/-!
Scripts laid out from tokens, with white space and comments between them. Where something stands
between any two words, the text is cut into these tokens again, each where it was put
(`tokenize_layout`).
-/

namespace StyleBundler.Script

open Lexer Text

/-- White space or a comment. -/
inductive Separator where
  | blank (c : Char) (space : isSpace c = true)
  /-- A comment up to the end of its line, with the line break. -/
  | line (text : List Char) (unbroken : '\n' ∉ text)
  | block (text : List Char) (unclosed : ¬['*', '/'] <:+: text)

namespace Separator

def lexemes : Separator → List Lexeme
  | blank c _ => [⟨none, [c]⟩]
  | line text _ => [⟨none, '/' :: '/' :: text⟩, ⟨none, ['\n']⟩]
  | block text _ => [⟨none, '/' :: '*' :: (text ++ ['*', '/'])⟩]

def text (s : Separator) : List Char := spell s.lexemes

theorem kind_eq_none {s : Separator} {l : Lexeme} (h : l ∈ s.lexemes) : l.kind = none := by
  cases s <;> simp only [lexemes, List.mem_cons, List.not_mem_nil, or_false] at h
  · rw [h]
  · rcases h with rfl | rfl <;> rfl
  · rw [h]

/-- No name goes on in white space or a comment. -/
theorem exists_text (s : Separator) : ∃ c cs, s.text = c :: cs ∧ isNameChar c = false := by
  cases s with
  | blank c space =>
      refine ⟨c, [], rfl, ?_⟩
      simp only [isSpace, Bool.or_eq_true, beq_iff_eq] at space
      rcases space with (((rfl | rfl) | rfl) | rfl) | rfl <;> rfl
  | line | block => exact ⟨'/', _, rfl, rfl⟩

end Separator

theorem stands_line (prior : Option TokenKind) {text : List Char} (h : '\n' ∉ text)
    (ds : List Char) : Stands prior ⟨none, '/' :: '/' :: text⟩ ('\n' :: ds) := by
  have hbreak : ∀ d, ('\n' :: ds).head? = some d → d = '\n' := fun _ hd =>
    (Option.some.inj hd).symm
  exact (Reads.line h hbreak).stands

theorem Lexer.blockComment_unclosed {text : List Char} (h : ¬['*', '/'] <:+: text)
    (ds : List Char) :
    blockComment (text ++ '*' :: '/' :: ds) = ⟨(), text ++ ['*', '/'], ds⟩ := by
  induction text with
  | nil => rfl
  | cons c text ih =>
      have hother : ¬(c = '*' ∧ (text ++ '*' :: '/' :: ds).head? = some '/') := by
        rintro ⟨rfl, hhead⟩
        cases text with
        | nil => cases hhead
        | cons d text =>
            cases hhead
            exact h ⟨[], text, rfl⟩
      rw [List.cons_append, blockComment_other hother,
        ih fun hpart => h (hpart.trans (List.suffix_cons c text).isInfix)]
      rfl

theorem stands_block (prior : Option TokenKind) {text : List Char} (h : ¬['*', '/'] <:+: text)
    (ds : List Char) : Stands prior ⟨none, '/' :: '*' :: (text ++ ['*', '/'])⟩ ds := by
  have hread : blockComment ((text ++ ['*', '/']) ++ ds) = ⟨(), text ++ ['*', '/'], ds⟩ := by
    rw [List.append_assoc]
    exact blockComment_unclosed h ds
  exact (Reads.block hread).stands

/-- The text spells a word, a sign or a string without escapes, in either kind of quotes. -/
inductive IsSpelled : TokenKind → List Char → Prop
  | word {name : String} (h : IsName name.toList) : IsSpelled (.ident name) name.toList
  | sign {c : Char} (h : isSign c = true) : IsSpelled (.punct c) [c]
  | string {quote : Char} {value : String} (hquote : quote = '\'' ∨ quote = '"')
      (hvalue : value.toList.all (isUnescaped quote) = true) :
      IsSpelled (.str value) (quote :: (value.toList ++ [quote]))

namespace TokenKind

def isWord : TokenKind → Bool
  | .ident _ => true
  | _ => false

end TokenKind

namespace IsSpelled

variable {kind : TokenKind} {text : List Char}

/-- It is read wherever it does not run into a longer name. -/
theorem stands (h : IsSpelled kind text) (prior : Option TokenKind) {ds : List Char}
    (hds : kind.isWord = true → ∀ d, ds.head? = some d → isNameChar d = false) :
    Stands prior ⟨some kind, text⟩ ds := by
  cases h with
  | word h => exact stands_name prior h (hds rfl)
  | sign h => exact stands_sign prior h ds
  | string hquote hvalue => exact stands_unescaped prior hquote hvalue ds

/-- What is no word starts with a character that no name has. -/
theorem exists_text (h : IsSpelled kind text) (hword : kind.isWord = false) :
    ∃ c cs, text = c :: cs ∧ isNameChar c = false := by
  cases h with
  | word => cases hword
  | @sign c h =>
      refine ⟨c, [], rfl, ?_⟩
      simp only [isSign, Bool.not_eq_true', Bool.or_eq_false_iff] at h
      exact h.2
  | string hquote =>
      rcases hquote with rfl | rfl
      · exact ⟨'\'', _, rfl, rfl⟩
      · exact ⟨'"', _, rfl, rfl⟩

end IsSpelled

/-- A token as it is spelled, with what stands in front of it. -/
structure Spaced where
  gap : List Separator
  kind : TokenKind
  text : List Char
  spelled : IsSpelled kind text

def gapText (gap : List Separator) : List Char := gap.flatMap Separator.text

namespace Spaced

def word (gap : List Separator) (name : String) (h : IsName name.toList) : Spaced :=
  ⟨gap, .ident name, name.toList, .word h⟩

def sign (gap : List Separator) (c : Char) (h : isSign c = true) : Spaced :=
  ⟨gap, .punct c, [c], .sign h⟩

/-- The second token does not run into the first one. -/
def Apart (s r : Spaced) : Prop := s.kind.isWord = true → r.kind.isWord = true → r.gap ≠ []

instance (s r : Spaced) : Decidable (Apart s r) := inferInstanceAs (Decidable (_ → _ → r.gap ≠ []))

def lexemes (s : Spaced) : List Lexeme :=
  s.gap.flatMap Separator.lexemes ++ [⟨some s.kind, s.text⟩]

end Spaced

/-- The text of tokens laid out in a row. -/
def layoutText (ss : List Spaced) : List Char := ss.flatMap fun s => gapText s.gap ++ s.text

/-- The tokens, where they stand in a text that starts at `pos`. -/
def layoutTokens (pos : Nat) : List Spaced → List Token
  | [] => []
  | s :: ss =>
      let start := pos + byteLength (gapText s.gap)
      let stop := start + byteLength s.text
      ⟨s.kind, ⟨start, stop⟩⟩ :: layoutTokens stop ss

@[simp] theorem map_kind_layoutTokens (pos : Nat) (ss : List Spaced) :
    (layoutTokens pos ss).map Token.kind = ss.map Spaced.kind := by
  induction ss generalizing pos with
  | nil => rfl
  | cons s ss ih => rw [layoutTokens, List.map_cons, List.map_cons, ih]

theorem layoutTokens_append (pos : Nat) (a b : List Spaced) :
    layoutTokens pos (a ++ b) =
      layoutTokens pos a ++ layoutTokens (pos + byteLength (layoutText a)) b := by
  induction a generalizing pos with
  | nil => rfl
  | cons s a ih =>
      simp only [List.cons_append, layoutTokens, ih, layoutText, List.flatMap_cons,
        byteLength_append, Nat.add_assoc]

theorem spell_gap (gap : List Separator) : spell (gap.flatMap Separator.lexemes) = gapText gap := by
  induction gap with
  | nil => rfl
  | cons s gap ih =>
      rw [List.flatMap_cons, spell_append, ih]
      rfl

theorem spell_layout (ss : List Spaced) : spell (ss.flatMap Spaced.lexemes) = layoutText ss := by
  induction ss with
  | nil => rfl
  | cons s ss ih =>
      rw [List.flatMap_cons, spell_append, ih, Spaced.lexemes, spell_append, spell_gap]
      simp [layoutText]

theorem place_gap (pos : Nat) (gap : List Separator) :
    place pos (gap.flatMap Separator.lexemes) = [] := by
  rw [← List.map_eq_nil_iff (f := Token.kind), map_kind_place, List.filterMap_eq_nil_iff]
  intro l hl
  obtain ⟨s, -, hs⟩ := List.mem_flatMap.mp hl
  exact Separator.kind_eq_none hs

theorem place_layout (pos : Nat) (ss : List Spaced) :
    place pos (ss.flatMap Spaced.lexemes) = layoutTokens pos ss := by
  induction ss generalizing pos with
  | nil => rfl
  | cons s ss ih =>
      rw [List.flatMap_cons, place_append, ih, Spaced.lexemes, place_append, place_gap,
        spell_append, spell_gap, byteLength_append, ← Nat.add_assoc]
      simp [place, layoutTokens]

theorem chain_gap (prior : Option TokenKind) (gap : List Separator) (ds : List Char) :
    Chain prior (gap.flatMap Separator.lexemes) ds := by
  induction gap generalizing prior with
  | nil => trivial
  | cons s gap ih =>
      rw [List.flatMap_cons]
      refine Chain.append ?_ (ih _)
      cases s with
      | blank c space => exact ⟨stands_blank _ space _, trivial⟩
      | line text unbroken => exact ⟨stands_line _ unbroken _, stands_blank _ rfl _, trivial⟩
      | block text unclosed => exact ⟨stands_block _ unclosed _, trivial⟩

theorem head?_gapText {gap : List Separator} {ds : List Char}
    (hds : gap = [] → ∀ d, ds.head? = some d → isNameChar d = false) :
    ∀ d, (gapText gap ++ ds).head? = some d → isNameChar d = false := by
  cases gap with
  | nil => exact hds rfl
  | cons s gap =>
      obtain ⟨c, cs, htext, hc⟩ := s.exists_text
      intro d hd
      rw [gapText, List.flatMap_cons, htext] at hd
      cases hd
      exact hc

/-- Tokens that are kept apart stand in any text that no word runs into. -/
theorem chain_layout {ss : List Spaced} (h : ss.IsChain Spaced.Apart) (prior : Option TokenKind)
    {ds : List Char} (hds : ∀ d, ds.head? = some d → isNameChar d = false) :
    Chain prior (ss.flatMap Spaced.lexemes) ds := by
  induction ss generalizing prior with
  | nil => trivial
  | cons s ss ih =>
      rw [List.flatMap_cons]
      refine Chain.append (Chain.append (chain_gap prior s.gap _) ⟨?_, trivial⟩) (ih h.tail _)
      rw [spell_layout, spell_nil, List.nil_append]
      refine s.spelled.stands _ fun hword => ?_
      cases ss with
      | nil => exact hds
      | cons r ss =>
          rw [layoutText, List.flatMap_cons, List.append_assoc, List.append_assoc]
          refine head?_gapText fun hgap => ?_
          have hother : r.kind.isWord = false :=
            eq_false_of_ne_true fun hr => (List.isChain_cons_cons.mp h).1 hword hr hgap
          obtain ⟨c, cs, htext, hc⟩ := r.spelled.exists_text hother
          intro d hd
          rw [htext] at hd
          cases hd
          exact hc

/-- A text laid out from tokens is cut into them. -/
theorem tokenize_layout {ss : List Spaced} (h : ss.IsChain Spaced.Apart) (last : List Separator) :
    tokenize (String.ofList (layoutText ss ++ gapText last)) = layoutTokens 0 ss := by
  have hend : ∀ d, (gapText last).head? = some d → isNameChar d = false := by
    have hnil := @head?_gapText last [] fun _ _ hd => nomatch hd
    rwa [List.append_nil] at hnil
  have hchain := chain_layout h none hend
  have hlast : lexemes (lastKind none (ss.flatMap Spaced.lexemes)) (gapText last) =
      last.flatMap Separator.lexemes := by
    have hgap := lexemes_chain (chain_gap (lastKind none (ss.flatMap Spaced.lexemes)) last [])
    rwa [spell_gap, List.append_nil, lexemes, List.append_nil] at hgap
  rw [tokenize, String.toList_ofList, ← spell_layout, lexemes_chain hchain, place_append,
    place_layout, hlast, place_gap, List.append_nil]

end StyleBundler.Script
