import Mathlib.Data.List.Induction
import StyleBundler.Proofs.Import.Extent
import StyleBundler.Proofs.Script.Cursor
import StyleBundler.Proofs.Script.Moving
import StyleBundler.Text.Blank

/-!
White space in front of a module. What the scanner does not know as white space is a token of its
own, a vertical tab a sign and a run of characters outside ASCII a name. Nodes do not look at such
tokens (`importNodesFrom_append_stray`), so that the nodes of a module only move as long as its own
tokens stay: the last of these names must not run into a name of the module, nor may a slash behind
it open a regular expression (`importNodes_indented`).
-/

namespace StyleBundler.Script

open Text Lexer
open Cursor (IsWide isSpace_of_isWide isNameChar_of_isWide isDigit_of_isWide)

/-- White space and line ends of the language, the byte order mark among them. -/
def isWhiteSpace (c : Char) : Bool := (isBlank c && c != '\u0085') || c == '\uFEFF'

/-- Nothing but white space. -/
def IsWhite (cs : List Char) : Prop := ∀ c ∈ cs, isWhiteSpace c = true

instance (cs : List Char) : Decidable (IsWhite cs) :=
  decidable_of_iff (cs.all isWhiteSpace = true) List.all_eq_true

/-- The scanner knows five of them, and a vertical tab is the only other one in ASCII. -/
theorem isWhiteSpace_cases {c : Char} (h : isWhiteSpace c = true) :
    isSpace c = true ∨ c = '\x0b' ∨ IsWide c := by
  have hnarrow : ∀ n < 0x80, isWhiteSpace (Char.ofNat n) = true →
      isSpace (Char.ofNat n) = true ∨ Char.ofNat n = '\x0b' := by decide
  by_cases hwide : IsWide c
  · exact .inr (.inr hwide)
  · have := hnarrow c.toNat (Nat.lt_of_not_le hwide)
    rw [Char.ofNat_toNat] at this
    exact (this h).imp id .inl

theorem isNameChar_of_isSpace {c : Char} (h : isSpace c = true) : isNameChar c = false := by
  simp only [isSpace, Bool.or_eq_true, beq_iff_eq] at h
  rcases h with (((rfl | rfl) | rfl) | rfl) | rfl <;> decide

theorem isWide_of_isNameChar {c : Char} (h : isWhiteSpace c = true) (hname : isNameChar c = true) :
    IsWide c := by
  rcases isWhiteSpace_cases h with hspace | rfl | hwide
  · rw [isNameChar_of_isSpace hspace] at hname
    cases hname
  · exact absurd hname (by decide)
  · exact hwide

/-- A name of characters outside ASCII only. -/
def IsWideName (name : String) : Prop := name.toList ≠ [] ∧ ∀ c ∈ name.toList, IsWide c

theorem IsWideName.isName {name : String} (h : IsWideName name) : IsName name.toList := by
  obtain ⟨hne, hwide⟩ := h
  obtain ⟨c, cs, hcs⟩ := List.exists_cons_of_ne_nil hne
  exact ⟨c, cs, hcs, isDigit_of_isWide (hwide c (by simp [hcs])),
    fun d hd => isNameChar_of_isWide (hwide d hd)⟩

/-- The lexemes that white space is read as. -/
inductive IsSpacing : Lexeme → Prop
  | blank {c : Char} (h : isSpace c = true) : IsSpacing ⟨none, [c]⟩
  | tab : IsSpacing ⟨some (.punct '\x0b'), ['\x0b']⟩
  | name {name : String} (h : IsWideName name) : IsSpacing ⟨some (.ident name), name.toList⟩

theorem isSpacing_next (prior : Option TokenKind) {c : Char} {cs : List Char}
    (h : IsWhite (c :: cs)) : IsSpacing ⟨(next prior c cs).value, (next prior c cs).text⟩ := by
  rcases isWhiteSpace_cases (h c List.mem_cons_self) with hspace | rfl | hwide
  · rw [next, if_pos hspace]
    exact .blank hspace
  · exact .tab
  · obtain ⟨name, hchars⟩ : ∃ name : String, name.toList = c :: cs.takeWhile isNameChar :=
      ⟨_, String.toList_ofList⟩
    have hname : IsWideName name := by
      refine ⟨by simp [hchars], ?_⟩
      intro d hd
      rw [hchars] at hd
      rcases List.mem_cons.mp hd with rfl | hd
      · exact hwide
      · exact isWide_of_isNameChar
          (h d (List.mem_cons_of_mem c ((List.takeWhile_prefix _).subset hd)))
          (List.all_eq_true.mp List.all_takeWhile d hd)
    obtain ⟨d, ds, htext, hnext⟩ := stands_name prior hname.isName
      fun d (hd : (cs.dropWhile isNameChar).head? = some d) => head?_dropWhile hd
    obtain ⟨rfl, rfl⟩ := List.cons.inj (hchars.symm.trans htext)
    rw [List.takeWhile_append_dropWhile] at hnext
    rw [hnext]
    exact .name hname

theorem isSpacing_lexemes {prior : Option TokenKind} {cs : List Char} (h : IsWhite cs) :
    ∀ l ∈ lexemes prior cs, IsSpacing l := by
  fun_induction lexemes prior cs with
  | case1 => exact fun l hl => absurd hl List.not_mem_nil
  | case2 prior c cs _ ih =>
      have hrest : IsWhite (next prior c cs).rest := by
        have hsplit := next_splits prior c cs
        intro d hd
        exact h d (hsplit ▸ List.mem_append_right _ hd)
      intro l hl
      rcases List.mem_cons.mp hl with rfl | hl
      · exact isSpacing_next prior h
      · exact ih hrest l hl

/-- The word has no character outside ASCII. -/
def IsAscii (word : String) : Prop := ∀ d ∈ word.toList, ¬IsWide d

instance (word : String) : Decidable (IsAscii word) :=
  decidable_of_iff ((word.toList.all fun d => !decide (IsWide d)) = true) (by simp [IsAscii])

theorem IsAscii.ne {name word : String} (hword : IsAscii word) {c : Char} (hc : c ∈ name.toList)
    (hwide : IsWide c) : name ≠ word := by
  rintro rfl
  exact hword c hc hwide

theorem opensRegex_of_isWide {name : String} {c : Char} (hc : c ∈ name.toList) (hwide : IsWide c) :
    TokenKind.opensRegex (some (.ident name)) = false := by
  have hwords : ∀ word ∈ operandKeywords, IsAscii word := by decide
  rw [TokenKind.opensRegex, Bool.eq_false_iff, ne_eq, List.contains_iff_mem]
  exact fun hmem => (hwords name hmem).ne hc hwide rfl

/-- All of the white space is passed over by the scanner, but for a vertical tab in the end. -/
def Unseen (cs : List Char) : Prop := ∀ c ∈ (cs.filter fun c => !isSpace c).getLast?, c = '\x0b'

instance (cs : List Char) : Decidable (Unseen cs) :=
  decidable_of_iff ((cs.filter fun c => !isSpace c).getLast?.all (· == '\x0b') = true)
    (by simp [Unseen, Option.all_eq_true])

/-- Behind unseen white space a slash opens a regular expression, as it does at the start of a
text. -/
theorem opensRegex_lastKind_iff {ls : List Lexeme} (hls : ∀ l ∈ ls, IsSpacing l) :
    TokenKind.opensRegex (lastKind none ls) = true ↔ Unseen (spell ls) := by
  -- From the end, since the last token that there is decides.
  induction ls using List.reverseRecOn with
  | nil =>
      refine ⟨fun _ c hc => ?_, fun _ => rfl⟩
      cases hc
  | append_singleton ls l ih =>
      have ih := ih fun m hm => hls m (List.mem_append_left _ hm)
      rw [lastKind_append, spell_append, Unseen, List.filter_append, List.getLast?_append]
      cases hls l (by simp) with
      | blank hspace =>
          simpa [Unseen, hspace] using ih
      | tab => exact ⟨fun _ c hc => (Option.some.inj hc).symm, fun _ => rfl⟩
      | @name name hname =>
          obtain ⟨hne, hwide⟩ := hname
          have hlast := List.getLast_mem hne
          have hfilter : name.toList.filter (fun c => !isSpace c) = name.toList :=
            List.filter_eq_self.mpr fun c hc => by simp [isSpace_of_isWide (hwide c hc)]
          have hopens := opensRegex_of_isWide hlast (hwide _ hlast)
          simp only [lastKind_cons, lastKind_nil, Option.some_or, hopens, spell_cons, spell_nil,
            List.append_nil, hfilter, List.getLast?_eq_some_getLast hne, Bool.false_eq_true,
            false_iff]
          intro h
          exact absurd (h _ rfl ▸ hwide _ hlast) (by decide)

/-- No name goes on in the text. -/
def EndsName (cs : List Char) : Prop := ∀ d ∈ cs.head?, isNameChar d = false

instance (cs : List Char) : Decidable (EndsName cs) :=
  decidable_of_iff (cs.head?.any isNameChar = false) (by cases cs <;> simp [EndsName])

/-- A lexeme of white space stands in front of any text that does not go on a name. -/
theorem IsSpacing.stands {l : Lexeme} (h : IsSpacing l) (prior : Option TokenKind) {ds : List Char}
    (hds : ∀ c ∈ l.text.getLast?, IsWide c → EndsName ds) : Stands prior l ds := by
  cases h with
  | blank hspace => exact stands_blank prior hspace ds
  | tab => exact stands_sign prior (by decide) ds
  | name hname =>
      have hlast := List.getLast?_eq_some_getLast hname.1
      exact stands_name prior hname.isName (hds _ hlast (hname.2 _ (List.getLast_mem hname.1)))

/-- The white space ends inside a name. -/
def EndsWide (cs : List Char) : Prop := ∃ c ∈ cs.getLast?, IsWide c

instance (cs : List Char) : Decidable (EndsWide cs) :=
  decidable_of_iff ((cs.getLast?.any fun c => decide (IsWide c)) = true)
    (by simp [EndsWide, Option.any_eq_true])

theorem Unseen.not_endsWide {cs : List Char} (h : Unseen cs) : ¬EndsWide cs := by
  rintro ⟨c, hc, hwide⟩
  obtain ⟨front, rfl⟩ := List.getLast?_eq_some_iff.mp hc
  have htab := h c (by simp [List.filter_append, isSpace_of_isWide hwide])
  exact absurd (htab ▸ hwide) (by decide)

/-- White space that does not run into the text behind it is read first. -/
theorem lexemes_spacing {w cs : List Char} (hw : IsWhite w) (happart : EndsWide w → EndsName cs) :
    lexemes none (w ++ cs) = lexemes none w ++ lexemes (lastKind none (lexemes none w)) cs := by
  have hchain : Chain none (lexemes none w) cs := by
    refine (chain_lexemes none w).of_synced (.inl rfl) ?_
    intro prior l hl _
    refine (isSpacing_lexemes hw l (List.mem_of_getLast? hl)).stands prior ?_
    intro c hc hwide
    refine happart ⟨c, ?_, hwide⟩
    obtain ⟨front, hfront⟩ := List.getLast?_eq_some_iff.mp hl
    rw [← spell_lexemes none w, hfront, spell_append, spell_cons, spell_nil, List.append_nil,
      List.getLast?_append, hc]
    rfl
  have h := lexemes_chain hchain
  rwa [spell_lexemes] at h

/-- The text behind the white space is read as it is without. -/
def StandsApart (w s : String) : Prop :=
  (EndsWide w.toList → EndsName s.toList) ∧
    (Unseen w.toList ∨ (tokenize s).head?.map Token.kind ≠ some .regex)

instance (w s : String) : Decidable (StandsApart w s) :=
  inferInstanceAs (Decidable ((_ → _) ∧ _))

theorem place_add (pos n : Nat) (ls : List Lexeme) :
    place (pos + n) ls = (place pos ls).map (Token.move (· + n)) := by
  induction ls generalizing pos with
  | nil => rfl
  | cons l ls ih =>
      simp only [place, Nat.add_right_comm pos n, ih]
      cases l.kind <;> rfl

theorem place_append_move {a b : List Lexeme} {w : List Char} (ha : spell a = w) :
    place 0 (a ++ b) = place 0 a ++ (place 0 b).map (Token.move (· + byteLength w)) := by
  rw [place_append, ha, place_add]

theorem tokenize_spacing {w s : String} (hw : IsWhite w.toList)
    (happart : EndsWide w.toList → EndsName s.toList) :
    tokenize (w ++ s) = tokenize w ++
      (place 0 (lexemes (lastKind none (lexemes none w.toList)) s.toList)).map
        (Token.move (· + byteLength w.toList)) := by
  rw [tokenize, String.toList_append, lexemes_spacing hw happart,
    place_append_move (spell_lexemes none w.toList)]
  rfl

/-- The words of a variable that a call initialises. -/
def bindingWords : List String := ["await", "const", "let", "var"]

/-- A token that no import behind it looks at. -/
def Token.IsStray (t : Token) : Prop :=
  t.isPunct '.' = false ∧ t.isPunct '=' = false ∧ ∀ word ∈ bindingWords, t.isIdent word = false

theorem Token.isStray_ident {name : String} (h : name ∉ bindingWords) (s : Span) :
    Token.IsStray ⟨.ident name, s⟩ := by
  refine ⟨rfl, rfl, ?_⟩
  intro word hword
  rw [Bool.eq_false_iff]
  intro hname
  cases beq_iff_eq.mp hname
  exact h hword

section Stray

variable {outer : List Token}

theorem boundName?_of_isStray {sign name keyword : Token} (h : keyword.IsStray)
    (ts : List Token) : boundName? (sign :: name :: keyword :: ts) = none := by
  have hconst := h.2.2 "const" (by decide)
  have hlet := h.2.2 "let" (by decide)
  have hvar := h.2.2 "var" (by decide)
  simp [boundName?, hconst, hlet, hvar]

theorem boundName?_append_stray (h : ∀ t ∈ outer, t.IsStray) (before : List Token) :
    boundName? (before ++ outer) = boundName? before := by
  match before with
  | sign :: name :: keyword :: before => rfl
  | [sign, name] =>
      cases outer with
      | nil => rfl
      | cons keyword outer => exact boundName?_of_isStray (h keyword (by simp)) outer
  | [sign] =>
      match outer, h with
      | [], _ | [_], _ => rfl
      | name :: keyword :: outer, h => exact boundName?_of_isStray (h keyword (by simp)) outer
  | [] =>
      match outer, h with
      | [], _ | [_], _ | [_, _], _ => rfl
      | sign :: name :: keyword :: outer, h =>
          exact boundName?_of_isStray (h keyword (by simp)) outer

theorem callBinding?_append_stray (h : ∀ t ∈ outer, t.IsStray) (call : Span)
    (before : List Token) : callBinding? call (before ++ outer) = callBinding? call before := by
  rw [callBinding?_eq, callBinding?_eq]
  cases before with
  | nil =>
      have hbound := boundName?_append_stray h []
      cases outer with
      | nil => rfl
      | cons t outer =>
          have hawait := (h t (by simp)).2.2 "await" (by decide)
          rw [List.nil_append] at hbound ⊢
          simp only [hawait, hbound]
          rfl
  | cons t ts =>
      have hbound := boundName?_append_stray h (t :: ts)
      rw [List.cons_append] at hbound ⊢
      simp only [boundName?_append_stray h, hbound]

theorem importNodeAt?_append_stray (h : ∀ t ∈ outer, t.IsStray) (before : List Token) (t : Token)
    (ts : List Token) : importNodeAt? (before ++ outer) t ts = importNodeAt? before t ts := by
  have hbefore : (before ++ outer).head?.any (·.isPunct '.') =
      before.head?.any (·.isPunct '.') := by
    cases before with
    | cons u before => rfl
    | nil =>
        cases outer with
        | nil => rfl
        | cons u outer => exact (h u (by simp)).1
  have hcall : ∀ rest : List Token,
      call? t.span.start (before ++ outer) rest = call? t.span.start before rest := by
    intro rest
    simp only [call?_eq, callBinding?_append_stray h]
  unfold importNodeAt?
  simp only [hbefore, hcall]

/-- Stray tokens in front of a module are not seen by its nodes. -/
theorem importNodesFrom_append_stray (h : ∀ t ∈ outer, t.IsStray) (before ts : List Token) :
    importNodesFrom (before ++ outer) ts = importNodesFrom before ts := by
  induction ts generalizing before with
  | nil => rfl
  | cons t ts ih =>
      have ih := ih (t :: before)
      rw [List.cons_append] at ih
      rw [importNodesFrom, importNodesFrom, importNodeAt?_append_stray h, ih]

theorem importNodesFrom_skip {front : List Token}
    (h : ∀ t ∈ front, t.isIdent "import" = false) (before ts : List Token) :
    importNodesFrom before (front ++ ts) = importNodesFrom (front.reverse ++ before) ts := by
  induction front generalizing before with
  | nil => rfl
  | cons t front ih =>
      have hnone : importNodeAt? before t (front ++ ts) = none := by
        unfold importNodeAt?
        simp [h t (by simp)]
      rw [List.cons_append, importNodesFrom, hnone, ih fun u hu => h u (List.mem_cons_of_mem t hu),
        List.reverse_cons, List.append_assoc]
      rfl

end Stray

/-- The tokens that white space becomes: a vertical tab, or a name that is not all ASCII. -/
inductive IsForeign : TokenKind → Prop
  | tab : IsForeign (.punct '\x0b')
  | name {name : String} {c : Char} (hc : c ∈ name.toList) (hwide : IsWide c) :
      IsForeign (.ident name)

theorem IsForeign.isIdent {t : Token} (h : IsForeign t.kind) {word : String}
    (hword : IsAscii word) : t.isIdent word = false := by
  rw [Token.isIdent, beq_eq_false_iff_ne]
  intro hkind
  rw [hkind] at h
  cases h with
  | name hc hwide => exact hword.ne hc hwide rfl

theorem IsForeign.isStray {t : Token} (h : IsForeign t.kind) : t.IsStray := by
  have hsigns : t.isPunct '.' = false ∧ t.isPunct '=' = false := by
    obtain ⟨kind, span⟩ := t
    cases h <;> exact ⟨rfl, rfl⟩
  have hwords : ∀ word ∈ bindingWords, IsAscii word := by decide
  exact ⟨hsigns.1, hsigns.2, fun word hword => h.isIdent (hwords word hword)⟩

theorem IsSpacing.isForeign {l : Lexeme} (h : IsSpacing l) {kind : TokenKind}
    (hkind : l.kind = some kind) : IsForeign kind := by
  cases h with
  | blank => cases hkind
  | tab =>
      cases hkind
      exact .tab
  | name hname =>
      cases hkind
      exact .name (List.getLast_mem hname.1) (hname.2 _ (List.getLast_mem hname.1))

theorem isForeign_place {ls : List Lexeme}
    (h : ∀ l ∈ ls, ∀ kind, l.kind = some kind → IsForeign kind) (pos : Nat) :
    ∀ t ∈ place pos ls, IsForeign t.kind := by
  intro t ht
  have hkind := List.mem_map_of_mem (f := Token.kind) ht
  rw [map_kind_place] at hkind
  obtain ⟨l, hl, hkind⟩ := List.mem_filterMap.mp hkind
  exact h l hl _ hkind

/-- Foreign tokens in front of moved ones leave the nodes as they are. -/
theorem importNodesFrom_foreign_append {front : List Token} (h : ∀ t ∈ front, IsForeign t.kind)
    (f : Nat → Nat) (ts : List Token) :
    importNodesFrom [] (front ++ ts.map (Token.move f)) =
      (importNodesFrom [] ts).map (ImportNode.move f) := by
  have hnodes := @importNodesFrom_move f [] ts
  rw [importNodesFrom_skip fun t ht => (h t ht).isIdent (by decide), List.append_nil, ← hnodes]
  exact importNodesFrom_append_stray (fun t ht => (h t (List.mem_reverse.mp ht)).isStray) [] _

theorem isForeign_tokenize {w : String} (hw : IsWhite w.toList) :
    ∀ t ∈ tokenize w, IsForeign t.kind :=
  isForeign_place (fun l hl _ => (isSpacing_lexemes hw l hl).isForeign) 0

/-- The white space in front of a module moves its nodes and does nothing else. -/
def OnlyMoves (w s : String) : Prop :=
  importNodes (w ++ s) = (importNodes s).map (.move (· + byteLength w.toList))

theorem StandsApart.onlyMoves {w s : String} (h : StandsApart w s) (hw : IsWhite w.toList) :
    OnlyMoves w s := by
  obtain ⟨happart, hslash⟩ := h
  have hsynced : Synced none (lastKind none (lexemes none w.toList))
      (firstKind? (lexemes none s.toList)) := by
    refine hslash.imp (fun hunseen => ?_) fun hkind => ⟨rfl, ?_⟩
    · rw [← spell_lexemes none w.toList, ← opensRegex_lastKind_iff (isSpacing_lexemes hw)]
        at hunseen
      exact hunseen
    · rwa [firstKind?_eq 0]
  rw [OnlyMoves, importNodes, tokenize_spacing hw happart, lexemes_synced hsynced]
  exact importNodesFrom_foreign_append (isForeign_tokenize hw) _ _

/-- A module that is read in another way behind a name: it starts with a regular expression, or
else with a division, and then the import is part of a string. -/
def slashed : String := "/'/;import 'a';//'"

theorem not_onlyMoves_slashed {w : String} (hw : IsWhite w.toList) (h : ¬Unseen w.toList) :
    ¬OnlyMoves w slashed := by
  have hopens : TokenKind.opensRegex (lastKind none (lexemes none w.toList)) = false := by
    rw [Bool.eq_false_iff, ne_eq, opensRegex_lastKind_iff (isSpacing_lexemes hw), spell_lexemes]
    exact h
  -- Behind any such name a slash is read as behind a number, which makes the reading a closed one.
  have hread : lexemes (lastKind none (lexemes none w.toList)) slashed.toList =
      lexemes (some .number) slashed.toList := lexemes_synced (.inl hopens)
  have hnone : (importNodesFrom []
      (place 0 (lexemes (some .number) slashed.toList))).length = 0 := by
    decide +kernel
  have hone : (importNodes slashed).length = 1 := by decide +kernel
  intro hmoves
  have hlength := congrArg List.length hmoves
  rw [importNodes, tokenize_spacing hw fun _ => by decide, hread,
    importNodesFrom_foreign_append (isForeign_tokenize hw), List.length_map, List.length_map,
    hnone, hone] at hlength
  cases hlength

/-- The last lexeme of white space that ends inside a name. -/
theorem exists_lexemes_of_endsWide {w : List Char} (hw : IsWhite w) (h : EndsWide w) :
    ∃ front name, lexemes none w = front ++ [⟨some (.ident name), name.toList⟩] ∧
      IsWideName name := by
  have hspell := spell_lexemes none w
  obtain ⟨c, hc, hwide⟩ := h
  obtain hnil | ⟨front, l, hls⟩ := List.eq_nil_or_concat (lexemes none w)
  · rw [hnil] at hspell
    rw [← hspell] at hc
    cases hc
  rw [List.concat_eq_append] at hls
  refine ⟨front, ?_⟩
  rw [hls, spell_append, spell_cons, spell_nil, List.append_nil] at hspell
  rw [← hspell, List.getLast?_append] at hc
  cases isSpacing_lexemes hw l (by rw [hls]; simp) with
  | @blank d hspace =>
      have hd : d = c := Option.some.inj hc
      rw [hd, isSpace_of_isWide hwide] at hspace
      cases hspace
  | tab =>
      have hd : '\x0b' = c := Option.some.inj hc
      exact absurd (hd ▸ hwide) (by decide)
  | @name name hname => exact ⟨name, hls, hname⟩

/-- A name of the text becomes a part of the name that the white space ends in. -/
theorem lexemes_glued {w r : List Char} {name : String} (hw : IsWhite w) (h : EndsWide w)
    (hname : IsName name.toList) (hr : EndsName r) :
    ∃ front glued, (∀ l ∈ front, IsSpacing l) ∧ (∃ c ∈ glued.toList, IsWide c) ∧
      spell front ++ glued.toList = w ++ name.toList ∧
      lexemes none (w ++ (name.toList ++ r)) =
        front ++ ⟨some (.ident glued), glued.toList⟩ :: lexemes (some (.ident glued)) r := by
  obtain ⟨front, space, hls, hspace⟩ := exists_lexemes_of_endsWide hw h
  obtain ⟨c, cs, hcs⟩ := List.exists_cons_of_ne_nil hspace.1
  have hc : IsWide c := hspace.2 c (by simp [hcs])
  have hspell : spell front ++ space.toList = w := by
    have := spell_lexemes none w
    rwa [hls, spell_append, spell_cons, spell_nil, List.append_nil] at this
  have htext : (space ++ name).toList = space.toList ++ name.toList := String.toList_append
  have hwhole : IsName (space ++ name).toList := by
    obtain ⟨_, _, _, _, hall⟩ := hname
    refine ⟨c, cs ++ name.toList, by rw [htext, hcs]; rfl, isDigit_of_isWide hc, ?_⟩
    intro d hd
    rw [htext] at hd
    exact (List.mem_append.mp hd).elim (fun hd => isNameChar_of_isWide (hspace.2 d hd)) (hall d)
  have hfront : Chain none front
      (spell [⟨some (.ident (space ++ name)), (space ++ name).toList⟩] ++ r) := by
    have hchain := chain_lexemes none w
    rw [hls] at hchain
    refine hchain.of_append.1.of_synced (.inl rfl) ?_
    intro prior l _ hl
    refine hl.of_sameStart ?_
    rw [spell_cons, spell_cons, htext, hcs]
    exact .head c _ _
  have hchain := hfront.append ⟨stands_name _ hwhole hr, trivial⟩
  have hread := lexemes_chain hchain
  refine ⟨front, space ++ name, ?_, ⟨c, by simp [htext, hcs], hc⟩, ?_, ?_⟩
  · exact fun l hl => isSpacing_lexemes hw l (hls ▸ List.mem_append_left _ hl)
  · rw [htext, ← List.append_assoc, hspell]
  · rw [spell_append, spell_cons, spell_nil, List.append_nil, htext] at hread
    simpa [← hspell] using hread

/-- A name that decides neither how a slash behind it is read nor what an import behind it is
bound to. -/
def IsPlainWord (name : String) : Prop :=
  IsName name.toList ∧ name ∉ operandKeywords ∧ name ∉ bindingWords

instance (name : String) : Decidable (IsPlainWord name) := inferInstanceAs (Decidable (_ ∧ _ ∧ _))

theorem tokenize_name {name r : String} (hname : IsName name.toList) (hr : EndsName r.toList) :
    tokenize (name ++ r) = ⟨.ident name, ⟨0, byteLength name.toList⟩⟩ ::
      place (byteLength name.toList) (lexemes (some (.ident name)) r.toList) := by
  have hchain : Chain none [⟨some (.ident name), name.toList⟩] r.toList :=
    ⟨stands_name none hname hr, trivial⟩
  have hread := lexemes_chain hchain
  rw [spell_cons, spell_nil, List.append_nil] at hread
  rw [tokenize, String.toList_append, hread]
  simp only [List.singleton_append, place, Nat.zero_add]
  rfl

/-- What is read behind a plain word of the text are the nodes that do not start with it. -/
theorem filter_importNodes {name r : String} (hname : IsPlainWord name) (hr : EndsName r.toList) :
    (importNodes (name ++ r)).filter (0 < ·.span.start) =
      importNodesFrom [] (place (byteLength name.toList)
        (lexemes (some (.ident name)) r.toList)) := by
  obtain ⟨hname, -, hbinding⟩ := hname
  have hpos : 0 < byteLength name.toList := by
    obtain ⟨c, cs, hcs, -, -⟩ := hname
    exact byteLength_pos (by simp [hcs])
  rw [importNodes, tokenize_name hname hr, importNodesFrom, List.filter_append]
  have hfirst : ∀ n ∈ (importNodeAt? [] ⟨.ident name, ⟨0, byteLength name.toList⟩⟩
      (place (byteLength name.toList) (lexemes (some (.ident name)) r.toList))).toList,
      ¬(decide (0 < n.span.start) = true) := by
    intro n hn
    rw [start_of_importNodeAt? (Option.mem_toList.mp hn)]
    exact fun hlt => Nat.lt_irrefl 0 (of_decide_eq_true hlt)
  have hlater : ∀ n ∈ importNodesFrom [⟨.ident name, ⟨0, byteLength name.toList⟩⟩]
      (place (byteLength name.toList) (lexemes (some (.ident name)) r.toList)),
      decide (0 < n.span.start) = true := by
    intro n hn
    obtain ⟨front, t, back, hts, hread⟩ := exists_split_of_mem_importNodesFrom hn
    have hstart := start_of_mem_place (wellSpelled_lexemes (some (.ident name)) r.toList)
      (t := t) (by rw [hts]; simp)
    rw [start_of_importNodeAt? hread]
    exact decide_eq_true (Nat.lt_of_lt_of_le hpos hstart.1)
  rw [List.filter_eq_nil_iff.mpr hfirst, List.filter_eq_self.mpr hlater, List.nil_append]
  exact importNodesFrom_append_stray
    (fun t ht => List.mem_singleton.mp ht ▸ Token.isStray_ident hbinding _) [] _

/-- A plain word that runs on a name of the white space is not read, and all else is. -/
theorem importNodes_glued {w name r : String} (hw : IsWhite w.toList) (h : EndsWide w.toList)
    (hname : IsPlainWord name) (hr : EndsName r.toList) :
    importNodes (w ++ (name ++ r)) =
      ((importNodes (name ++ r)).filter (0 < ·.span.start)).map
        (.move (· + byteLength w.toList)) := by
  obtain ⟨front, glued, hfront, ⟨c, hc, hwide⟩, hspell, hread⟩ :=
    lexemes_glued hw h hname.1 hr
  have hopens : TokenKind.opensRegex (some (.ident name)) = false := by
    rw [TokenKind.opensRegex, Bool.eq_false_iff, ne_eq, List.contains_iff_mem]
    exact hname.2.1
  have hbehind : lexemes (some (.ident glued)) r.toList = lexemes (some (.ident name)) r.toList :=
    lexemes_synced (.inl ((opensRegex_of_isWide hc hwide).trans hopens.symm))
  have hforeign : ∀ t ∈ place 0 (front ++ [⟨some (.ident glued), glued.toList⟩]),
      IsForeign t.kind := by
    refine isForeign_place (fun l hl kind hkind => ?_) 0
    rcases List.mem_append.mp hl with hl | hl
    · exact (hfront l hl).isForeign hkind
    · cases List.mem_singleton.mp hl
      cases hkind
      exact .name hc hwide
  have hspelled : spell (front ++ [⟨some (.ident glued), glued.toList⟩]) =
      w.toList ++ name.toList := by
    rw [spell_append, spell_cons, spell_nil, List.append_nil, hspell]
  have htokens : tokenize (w ++ (name ++ r)) =
      place 0 (front ++ [⟨some (.ident glued), glued.toList⟩]) ++
        (place (byteLength name.toList) (lexemes (some (.ident name)) r.toList)).map
          (Token.move (· + byteLength w.toList)) := by
    rw [tokenize, String.toList_append, String.toList_append, hread, hbehind,
      ← List.singleton_append, ← List.append_assoc, place_append, hspelled, byteLength_append,
      Nat.zero_add, Nat.add_comm, place_add]
  rw [filter_importNodes hname hr, importNodes, htokens]
  exact importNodesFrom_foreign_append hforeign _ _

theorem Unseen.standsApart {w : String} (h : Unseen w.toList) (s : String) : StandsApart w s :=
  ⟨fun hwide => absurd hwide h.not_endsWide, .inl h⟩

/-- White space in front of a module only moves the nodes, whatever the module is, exactly if it is
unseen. In front of a module that stands apart it does so anyway, and of one that does not, a plain
word that runs on the white space is lost: with a byte order mark in front, the import that a module
starts with. -/
theorem importNodes_indented {w : String} (hw : IsWhite w.toList) :
    ((∀ s, OnlyMoves w s) ↔ Unseen w.toList) ∧ (∀ s, StandsApart w s → OnlyMoves w s) ∧
      ∀ name r, EndsWide w.toList → IsPlainWord name → EndsName r.toList →
        importNodes (w ++ (name ++ r)) =
          ((importNodes (name ++ r)).filter (0 < ·.span.start)).map
            (.move (· + byteLength w.toList)) := by
  refine ⟨⟨fun h => ?_, fun h s => (h.standsApart s).onlyMoves hw⟩,
    fun s h => h.onlyMoves hw, fun name r => importNodes_glued hw⟩
  by_contra hseen
  exact not_onlyMoves_slashed hw hseen (h slashed)

theorem importNodes_indented_mark :
    IsWhite "\uFEFF".toList ∧ ¬(∀ s, OnlyMoves "\uFEFF" s) ∧
      (∀ s, OnlyMoves "\n\x0b\n" s) ∧ OnlyMoves "\uFEFF\n" "import './a.css';" ∧
      importNodes ("\uFEFF" ++ ("import" ++ " './a.css';")) = [] := by
  have hmark : IsWhite "\uFEFF".toList := by decide
  refine ⟨hmark, ?_, (importNodes_indented (by decide)).1.mpr (by decide),
    (importNodes_indented (by decide)).2.1 _ (by decide +kernel), ?_⟩
  · exact fun h => absurd ((importNodes_indented hmark).1.mp h) (by decide)
  · rw [(importNodes_indented hmark).2.2 "import" " './a.css';" (by decide) (by decide) (by decide),
      List.map_eq_nil_iff]
    exact List.eq_nil_of_length_eq_zero (by decide +kernel)

/-- A module with a byte order mark has not the nodes that it has without. -/
theorem importNodes_indented_lost :
    ¬∀ w s : String, IsWhite w.toList →
      importNodes (w ++ s) = (importNodes s).map (.move (· + byteLength w.toList)) := by
  intro h
  have hlength := congrArg List.length (h "\uFEFF" "import './a.css';" (by decide))
  have hnone : (importNodes ("\uFEFF" ++ "import './a.css';")).length = 0 := by decide +kernel
  have hone : (importNodes "import './a.css';").length = 1 := by decide +kernel
  rw [hnone, List.length_map, hone] at hlength
  cases hlength

end StyleBundler.Script
