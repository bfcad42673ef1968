import Mathlib.Data.List.Basic
import StyleBundler.Proofs.Import.Node

/-!
Where the specifiers of import nodes stand among the tokens. Each has a foothold
(`exists_specifierAt`), and its span tells its place, so that nodes with one specifier are
stylesheet imports together or not at all (`isCss_eq_of_span_eq`).
-/

namespace StyleBundler.Script

open Text Import

/-- Tokens start one behind the other. -/
theorem pairwise_place (pos : Nat) {ls : List Lexeme} (h : WellSpelled ls) :
    (place pos ls).Pairwise fun a b => a.span.start < b.span.start := by
  induction ls generalizing pos with
  | nil => exact .nil
  | cons l ls ih =>
      have hpos := byteLength_pos (h l List.mem_cons_self).1
      simp only [place]
      split
      · refine List.pairwise_cons.mpr ⟨?_, ih _ h.tail⟩
        intro t ht
        have := (start_of_mem_place h.tail ht).1
        simp only
        omega
      · exact ih _ h.tail

/-- The span of a token tells its place. -/
theorem eq_of_span_eq {ts front front' back back' : List Token} {t t' : Token}
    (hts : ts.Pairwise fun a b => a.span.start < b.span.start) (h : ts = front ++ t :: back)
    (h' : ts = front' ++ t' :: back') (hspan : t.span = t'.span) :
    front = front' ∧ t = t' ∧ back = back' := by
  have hne : ∀ {u : Token}, u.span.start < t.span.start ∨ t.span.start < u.span.start → u ≠ t' := by
    rintro u hlt rfl
    rw [hspan] at hlt
    omega
  subst h
  obtain ⟨-, hback, hfront⟩ := List.pairwise_append.mp hts
  refine (List.append_cons_inj_of_notMem ?_ ?_).mp h'
  · intro hmem
    exact hne (.inl (hfront _ hmem t List.mem_cons_self)) rfl
  · intro hmem
    exact hne (.inr ((List.pairwise_cons.mp hback).1 _ hmem)) rfl

/-- A node with a literal specifier `b` that stands between `a` and `back`. -/
def SpecifierAt (a b : Token) (back : List Token) : ImportNode → Prop
  | .declaration d =>
      (∃ name, a.kind = .ident name) ∧ b = ⟨.str d.source, d.sourceSpan⟩ ∧
        ∃ rest, attributes? back = some (d.attributes, rest)
  | .call c =>
      a.kind = .punct '(' ∧ (c.argument.literal? = some b.kind ∧ c.argument.span = b.span) ∧
        endsOperand back = true ∧ ∃ rest, readOptions? back = some (c.options, rest)

namespace SpecifierAt

variable {a b : Token} {back : List Token} {n n' : ImportNode}

theorem span_eq (h : SpecifierAt a b back n) : n.specifier.span = b.span := by
  cases n with
  | declaration d =>
      obtain ⟨-, rfl, -⟩ := h
      rfl
  | call c => exact h.2.1.2

theorem foothold (h : SpecifierAt a b back n) : Foothold a b back := by
  cases n with
  | declaration d =>
      obtain ⟨hname, rfl, -⟩ := h
      exact .inr ⟨hname, d.source, rfl⟩
  | call c => exact .inl ⟨h.1, h.2.2.1⟩

theorem literal?_eq (h : SpecifierAt a b back n) : n.specifier.literal? = some b.kind := by
  cases n with
  | declaration d =>
      obtain ⟨-, rfl, -⟩ := h
      rfl
  | call c => exact h.2.1.1

theorem specifier_eq (h : SpecifierAt a b back n) (h' : SpecifierAt a b back n') :
    n.specifier = n'.specifier :=
  Expr.eq_of_literal? h.literal?_eq h'.literal?_eq (h.span_eq.trans h'.span_eq.symm)

/-- What decides about a node stands behind its specifier. -/
theorem isCss_eq (h : SpecifierAt a b back n) (h' : SpecifierAt a b back n') :
    n.isCss = n'.isCss := by
  cases n with
  | declaration d =>
      obtain ⟨⟨name, hname⟩, -, rest, hrest⟩ := h
      cases n' with
      | declaration d' =>
          obtain ⟨-, -, rest', hrest'⟩ := h'
          have hattributes : d.attributes = d'.attributes :=
            (Prod.mk.inj (Option.some.inj (hrest.symm.trans hrest'))).1
          simp only [ImportNode.isCss, isCssDeclaration, hattributes]
      | call c' => cases hname.symm.trans h'.1
  | call c =>
      obtain ⟨hparen, -, -, rest, hrest⟩ := h
      cases n' with
      | declaration d' =>
          obtain ⟨⟨name, hname⟩, -⟩ := h'
          cases hname.symm.trans hparen
      | call c' =>
          obtain ⟨-, -, -, rest', hrest'⟩ := h'
          have hoptions : c.options = c'.options :=
            (Prod.mk.inj (Option.some.inj (hrest.symm.trans hrest'))).1
          simp only [ImportNode.isCss, cssKeyword?, hoptions]

end SpecifierAt

theorem declaration?_specifierAt {start : Nat} {word : Token} {ts : List Token} {name : String}
    {d : ImportDeclaration} (hword : word.kind = .ident name)
    (h : declaration? start ts = some d) :
    ∃ front a b back, word :: ts = front ++ a :: b :: back ∧
      SpecifierAt a b back (.declaration d) := by
  obtain ⟨bound, rest, left, hclause, hattributes, -⟩ := exists_readClause?_of_declaration? h
  obtain ⟨front, a, aName, heq, hname⟩ := readClause?_foothold hword hclause
  exact ⟨front, a, _, rest, heq, ⟨aName, hname⟩, rfl, left, hattributes⟩

theorem call?_specifierAt {start : Nat} {before ts : List Token} {c : ImportCall}
    (h : call? start before ts = some c) {kind : TokenKind}
    (hliteral : c.argument.literal? = some kind) :
    ∃ back, ts = ⟨kind, c.argument.span⟩ :: back ∧ endsOperand back = true ∧
      ∃ rest, readOptions? back = some (c.options, rest) := by
  obtain ⟨rest, z, left, hread, hoptions, -⟩ := exists_readExpr?_of_call? h
  obtain ⟨heq, hends⟩ := readExpr?_literal hread hliteral
  exact ⟨rest, heq, hends, z :: left, hoptions⟩

theorem importNodeAt?_specifierAt {before ts : List Token} {t : Token} {n : ImportNode}
    (h : importNodeAt? before t ts = some n) {kind : TokenKind}
    (hliteral : n.specifier.literal? = some kind) :
    ∃ front a b back, t :: ts = front ++ a :: b :: back ∧ SpecifierAt a b back n := by
  obtain ⟨hword, -, ⟨paren, rest, c, rfl, hparen, hc, rfl⟩ | ⟨d, -, hd, rfl⟩⟩ :=
    importNodeAt?_cases h
  · obtain ⟨back, heq, hends, hoptions⟩ := call?_specifierAt hc hliteral
    exact ⟨[t], paren, ⟨kind, c.argument.span⟩, back, by rw [heq]; rfl,
      hparen, ⟨hliteral, rfl⟩, hends, hoptions⟩
  · exact declaration?_specifierAt hword hd

theorem importNodesFrom_specifierAt {before ts : List Token} {n : ImportNode}
    (h : n ∈ importNodesFrom before ts) {kind : TokenKind}
    (hliteral : n.specifier.literal? = some kind) :
    ∃ front a b back, ts = front ++ a :: b :: back ∧ SpecifierAt a b back n := by
  induction ts generalizing before with
  | nil => cases h
  | cons t ts ih =>
      rw [importNodesFrom, List.mem_append, Option.mem_toList] at h
      rcases h with h | h
      · exact importNodeAt?_specifierAt h hliteral
      · obtain ⟨front, a, b, back, rfl, hn⟩ := ih h
        exact ⟨t :: front, a, b, back, rfl, hn⟩

variable {code : String} {n n' : ImportNode} {kind kind' : TokenKind}

theorem tokenize_eq_of_span_eq {front front' back back' : List Token} {a a' b b' : Token}
    (h : tokenize code = front ++ a :: b :: back)
    (h' : tokenize code = front' ++ a' :: b' :: back') (hspan : b.span = b'.span) :
    a = a' ∧ b = b' ∧ back = back' := by
  have hts := pairwise_place 0 (wellSpelled_lexemes none code.toList)
  rw [← List.singleton_append, ← List.append_assoc] at h h'
  obtain ⟨hfront, hb, hback⟩ := eq_of_span_eq hts h h' hspan
  obtain ⟨-, hlast⟩ := List.append_inj' hfront rfl
  exact ⟨List.head_eq_of_cons_eq hlast, hb, hback⟩

theorem exists_specifierAt (h : n ∈ importNodes code)
    (hliteral : n.specifier.literal? = some kind) :
    ∃ front a b back, tokenize code = front ++ a :: b :: back ∧ SpecifierAt a b back n :=
  importNodesFrom_specifierAt h hliteral

/-- Nodes with one literal specifier import a stylesheet together or not at all. -/
theorem isCss_eq_of_span_eq (h : n ∈ importNodes code) (hliteral : n.specifier.literal? = some kind)
    (h' : n' ∈ importNodes code) (hliteral' : n'.specifier.literal? = some kind')
    (hspan : n.specifier.span = n'.specifier.span) :
    n.isCss = n'.isCss ∧ n.specifier = n'.specifier := by
  obtain ⟨front, a, b, back, heq, hat⟩ := exists_specifierAt h hliteral
  obtain ⟨front', a', b', back', heq', hat'⟩ := exists_specifierAt h' hliteral'
  rw [hat.span_eq, hat'.span_eq] at hspan
  obtain ⟨rfl, rfl, rfl⟩ := tokenize_eq_of_span_eq heq heq' hspan
  exact ⟨hat.isCss_eq hat', hat.specifier_eq hat'⟩

theorem exists_token (h : n ∈ importNodes code) (hliteral : n.specifier.literal? = some kind) :
    ∃ t ∈ tokenize code, t.span = n.specifier.span ∧ t.kind.IsLiteral := by
  obtain ⟨front, a, b, back, heq, hat⟩ := exists_specifierAt h hliteral
  exact ⟨b, by simp [heq], hat.span_eq.symm, Expr.isLiteral_of_literal? hat.literal?_eq⟩

/-- The redirects are for literal specifiers of the module. -/
def ForSpecifiers (rs : Redirects) (code : String) : Prop :=
  ∀ x ∈ rs, ∃ n ∈ importNodes code, ∃ kind,
    n.specifier.literal? = some kind ∧ n.specifier.span = x.1

theorem ForSpecifiers.exists_token {rs : Redirects} (h : ForSpecifiers rs code) :
    ∀ x ∈ rs, ∃ t ∈ tokenize code, t.span = x.1 ∧ t.kind.IsLiteral := by
  intro x hx
  obtain ⟨n, hn, kind, hliteral, hspan⟩ := h x hx
  rw [← hspan]
  exact Script.exists_token hn hliteral

/-- Each token that gives way to a redirect for a specifier has a foothold. -/
theorem ForSpecifiers.placed {rs : Redirects} (h : ForSpecifiers rs code) :
    Placed rs (tokenize code) := by
  rintro front a b back heq ⟨-, value, hvalue⟩
  obtain ⟨n, hn, kind, hliteral, hspan⟩ := h _ (mem_of_lookup hvalue)
  obtain ⟨front', a', b', back', heq', hat⟩ := exists_specifierAt hn hliteral
  rw [hat.span_eq] at hspan
  obtain ⟨rfl, rfl, rfl⟩ := tokenize_eq_of_span_eq heq heq' hspan.symm
  exact hat.foothold

/-- The nodes of a script whose specifiers gave way to plain strings are its own, redirected. -/
theorem importNodes_patches {rs : Redirects} (h : ForSpecifiers rs code)
    (hsorted : rs.Pairwise fun a b => a.1.stop ≤ b.1.start)
    (hplain : ∀ x ∈ rs, x.2.toList.all Lexer.isPlain = true) :
    importNodes (String.ofList
        ((Edits.patches 0 code.toList (rs.map Redirects.edit)).flatMap Patch.text)) =
      (importNodes code).map (ImportNode.redirect rs) := by
  rw [importNodes, tokenize_patches h.exists_token hsorted hplain]
  exact importNodesFrom_redirect [] h.placed

end StyleBundler.Script
