import StyleBundler.Proofs.Script.Cursor

/-!
The tokens of a source make it up, but for white space and comments. Each token is a slice of the
source that shows its kind, the slices are in order and apart, and each byte in none of them is in
white space or in a comment (`Partitions`). This holds of any source, and the tokens are found
without a slice that does not fit it.
-/

namespace StyleBundler.Script

open Text Lexer

/-- A name and a sign are spelled as they are; any other token starts with a sign of its kind. -/
def TokenKind.Fits : TokenKind → List Char → Prop
  | .ident name, text => text = name.toList
  | .punct sign, text => text = [sign]
  | .str _, text => ∃ quote ∈ text.head?, quote = '\'' ∨ quote = '"'
  | .template _, text => text.head? = some '\x60'
  | .regex, text => text.head? = some '/'
  | .number, text => ∃ digit ∈ text.head?, digit.isDigit = true

/-- White space or a comment, in front of `rest`. A block comment that is not closed takes up the
text to its end. -/
inductive IsGap : List Char → List Char → Prop
  | space {c : Char} (hc : isSpace c = true) (rest : List Char) : IsGap [c] rest
  | line {text rest : List Char} (htext : '\n' ∉ text) (hrest : ∀ c ∈ rest.head?, c = '\n') :
      IsGap ('/' :: '/' :: text) rest
  | block {text : List Char} (htext : ¬['*', '/'] <:+: text) (rest : List Char) :
      IsGap ('/' :: '*' :: (text ++ ['*', '/'])) rest
  | unclosed {text : List Char} (htext : ¬['*', '/'] <:+: text) : IsGap ('/' :: '*' :: text) []

theorem Lexer.blockComment_closes (cs : List Char) :
    (∃ text, ¬['*', '/'] <:+: text ∧ (blockComment cs).text = text ++ ['*', '/']) ∨
      ¬['*', '/'] <:+: (blockComment cs).text ∧ (blockComment cs).rest = [] := by
  induction cs using blockComment.induct with
  | case1 => exact .inr ⟨by decide, rfl⟩
  | case2 cs => exact .inl ⟨[], by decide, rfl⟩
  | case3 c cs hc ih =>
      have hother : ¬(c = '*' ∧ cs.head? = some '/') := by
        rintro ⟨rfl, hhead⟩
        obtain ⟨rest, rfl⟩ := List.head?_eq_some_iff.mp hhead
        exact hc rest rfl rfl
      -- What the comment takes of the text starts as the text does.
      have hcons : ∀ {text more : List Char}, text ++ more = cs → ¬['*', '/'] <:+: text →
          ¬['*', '/'] <:+: c :: text := by
        rintro text more rfl htext
        rw [List.infix_cons_iff, not_or]
        refine ⟨?_, htext⟩
        rintro ⟨rest, hrest⟩
        obtain ⟨rfl, rfl⟩ := List.cons.inj hrest
        exact hother ⟨rfl, rfl⟩
      have hsplit := blockComment_splits cs
      rw [blockComment_other hother]
      rcases ih with ⟨text, htext, hcs⟩ | ⟨htext, hrest⟩
      · rw [Splits, hcs, List.append_assoc] at hsplit
        exact .inl ⟨c :: text, hcons hsplit htext, by rw [hcs, List.cons_append]⟩
      · exact .inr ⟨hcons hsplit htext, hrest⟩

section Reads

variable {prior : Option TokenKind} {c : Char} {cs : List Char} {s : Scan (Option TokenKind)}

theorem Lexer.Reads.fits (h : Reads prior c cs s) {kind : TokenKind} (hs : s.value = some kind) :
    kind.Fits s.text := by
  cases h with
  | space | line | block => cases hs
  | regex | slash | template | sign =>
      cases hs
      rfl
  | quoted hc =>
      cases hs
      exact ⟨c, rfl, hc⟩
  | number hc =>
      cases hs
      exact ⟨c, rfl, hc⟩
  | name =>
      cases hs
      exact String.toList_ofList.symm

theorem Lexer.Reads.isGap (h : Reads prior c cs s) (hs : s.value = none) : IsGap s.text s.rest := by
  cases h with
  | space hc => exact .space hc cs
  | line htext hrest => exact .line htext hrest
  | @block cs text rest h =>
      have hcloses := blockComment_closes cs
      rw [h] at hcloses
      obtain ⟨text, htext, rfl⟩ | ⟨htext, rfl⟩ := hcloses
      · exact .block htext rest
      · exact .unclosed htext
  | regex | slash | quoted | template | number | name | sign => cases hs

end Reads

/-- The byte is in white space or in a comment, which no token reaches into. -/
def InGap (cs : List Char) (ts : List Token) (n : Nat) : Prop :=
  ∃ a text rest, cs = a ++ (text ++ rest) ∧ IsGap text rest ∧
    byteLength a ≤ n ∧ n < byteLength a + byteLength text ∧
    ∀ t ∈ ts, t.span.stop ≤ byteLength a ∨ byteLength a + byteLength text ≤ t.span.start

/-- The tokens are slices of the text, in order and apart, and a byte in none of them is in white
space or in a comment. -/
structure Partitions (cs : List Char) (ts : List Token) : Prop where
  inOrder : InOrder ts
  fits : ∀ t ∈ ts, IsBoundary cs t.span.start ∧ IsBoundary cs t.span.stop ∧
    t.span.stop ≤ byteLength cs ∧ ∃ text, slice? cs t.span = some text ∧ t.kind.Fits text
  covers : ∀ n < byteLength cs, (∃ t ∈ ts, t.span.start ≤ n ∧ n < t.span.stop) ∨ InGap cs ts n

/-- A byte of the text is a byte of one of the lexemes. -/
theorem exists_lexeme_of_lt {ls : List Lexeme} {n : Nat} (h : n < byteLength (spell ls)) :
    ∃ a l b, ls = a ++ l :: b ∧ byteLength (spell a) ≤ n ∧
      n < byteLength (spell a) + byteLength l.text := by
  induction ls generalizing n with
  | nil => exact absurd h (Nat.not_lt_zero n)
  | cons l ls ih =>
      rw [spell_cons, byteLength_append] at h
      by_cases hfirst : n < byteLength l.text
      · exact ⟨[], l, ls, rfl, Nat.zero_le n, by simpa using hfirst⟩
      · obtain ⟨a, m, b, rfl, hle, hlt⟩ := ih (n := n - byteLength l.text) (by omega)
        refine ⟨l :: a, m, b, rfl, ?_, ?_⟩ <;> rw [spell_cons, byteLength_append] <;> omega

theorem Stands.fits {prior : Option TokenKind} {l : Lexeme} {ds : List Char} {kind : TokenKind}
    (h : Stands prior l ds) (hkind : l.kind = some kind) : kind.Fits l.text := by
  obtain ⟨_, _, -, hread⟩ := stands_iff.mp h
  exact hread.fits hkind

theorem Stands.isGap {prior : Option TokenKind} {l : Lexeme} {ds : List Char}
    (h : Stands prior l ds) (hkind : l.kind = none) : IsGap l.text ds := by
  obtain ⟨_, _, -, hread⟩ := stands_iff.mp h
  exact hread.isGap hkind

section Chain

variable {prior : Option TokenKind} {ls : List Lexeme}

theorem Chain.fits (h : Chain prior ls []) {t : Token} (ht : t ∈ place 0 ls) :
    IsBoundary (spell ls) t.span.start ∧ IsBoundary (spell ls) t.span.stop ∧
      t.span.stop ≤ byteLength (spell ls) ∧
      ∃ text, slice? (spell ls) t.span = some text ∧ t.kind.Fits text := by
  obtain ⟨front, back, hplace⟩ := List.append_of_mem ht
  obtain ⟨a, l, b, rfl, -, hkind, hspan, -⟩ := exists_lexeme_of_place hplace
  have hsplit : spell (a ++ l :: b) = spell a ++ (l.text ++ spell b) := by
    rw [spell_append, spell_cons]
  have hslice : slice? (spell (a ++ l :: b)) t.span = some l.text := by
    rw [slice?_eq_some_iff, hspan]
    exact ⟨spell a, spell b, hsplit, by simp, rfl⟩
  obtain ⟨-, hstart, hstop⟩ := isSome_slice?_iff.mp (Option.isSome_of_eq_some hslice)
  refine ⟨hstart, hstop, ?_, l.text, hslice, (Chain.of_append h).2.1.fits hkind⟩
  rw [hspan, hsplit, byteLength_append, byteLength_append]
  dsimp only
  omega

theorem Chain.covers (h : Chain prior ls []) (hls : WellSpelled ls) {n : Nat}
    (hn : n < byteLength (spell ls)) :
    (∃ t ∈ place 0 ls, t.span.start ≤ n ∧ n < t.span.stop) ∨ InGap (spell ls) (place 0 ls) n := by
  obtain ⟨a, l, b, rfl, hle, hlt⟩ := exists_lexeme_of_lt hn
  have hplace := place_append 0 a (l :: b)
  rw [Nat.zero_add] at hplace
  cases hkind : l.kind with
  | some kind =>
      refine .inl ⟨⟨kind, ⟨byteLength (spell a), byteLength (spell a) + byteLength l.text⟩⟩, ?_,
        hle, hlt⟩
      rw [hplace, place, hkind]
      simp
  | none =>
      have hgap := (Chain.of_append h).2.1.isGap hkind
      rw [List.append_nil] at hgap
      refine .inr ⟨spell a, l.text, spell b, by rw [spell_append, spell_cons], hgap, hle, hlt, ?_⟩
      intro t ht
      rw [hplace, place, hkind] at ht
      rcases List.mem_append.mp ht with ht | ht
      · have hbounds := bounds_of_mem_place (fun m hm => hls m (List.mem_append_left _ hm)) ht
        exact .inl (by omega)
      · have hb : WellSpelled b := fun m hm =>
          hls m (List.mem_append_right _ (List.mem_cons_of_mem l hm))
        exact .inr (start_of_mem_place hb ht).1

end Chain

/-- Of any source the tokens are found, no slice being taken inside a character or past the end, and
they partition it. -/
theorem tokenize_partitions (source : String) :
    tokenizeBytes source = some (tokenize source) ∧
      Partitions source.toList (tokenize source) := by
  have hchain := chain_lexemes none source.toList
  have hls := wellSpelled_lexemes none source.toList
  have hspell : spell (lexemes none source.toList) = source.toList := flatMap_text_lexemes _ _
  refine ⟨tokenizeBytes_eq source, inOrder_tokenize source, fun t ht => ?_, fun n hn => ?_⟩
  · have hfits := hchain.fits ht
    rwa [hspell] at hfits
  · have hcovers := hchain.covers hls (hspell.symm ▸ hn)
    rwa [hspell] at hcovers

end StyleBundler.Script
