import StyleBundler.Proofs.Import.Clause
import StyleBundler.Proofs.Pack.Quiet
import StyleBundler.Proofs.Script.Piece

/-!
Statements that import no asset, whatever their names are. A clause that starts at one of their
words ends with the statement or with the brace around it, without a specifier (`Inert`), and a
statement that has a specifier names no asset by it.
-/

namespace StyleBundler

open Script

namespace Script

/-- The token ends a statement or closes a brace. -/
def Token.stops (t : Token) : Bool := t.isPunct ';' || t.isPunct '\x7d'

theorem Token.stops_iff {t : Token} :
    t.stops = true ↔ t.kind = .punct ';' ∨ t.kind = .punct '\x7d' := by
  simp [stops, isPunct]

theorem clause?_stops {t : Token} (h : t.stops = true) (first : Bool) (found : ClauseBindings)
    (ts : List Token) : clause? first 0 found (t :: ts) = none := by
  rcases Token.stops_iff.mp h with h | h <;> simp [clause?, h]

/-- A word in front of a sign is passed over, whatever it is. -/
theorem clause?_word {t s : Token} {name : String} {c : Char} (ht : t.kind = .ident name)
    (hs : s.kind = .punct c) (first : Bool) (depth : Nat) (found : ClauseBindings)
    (ts : List Token) :
    ∃ found', clause? first depth found (t :: s :: ts) = clause? false depth found' (s :: ts) := by
  have hstring : leadingString? (s :: ts) = none := by simp [leadingString?, hs]
  rw [clause?.eq_def first depth found (t :: s :: ts)]
  simp only [ht, hstring]
  split
  · exact ⟨_, rfl⟩
  · split <;> exact ⟨found, rfl⟩

end Script

namespace Plan

variable {store : AssetStore}

/-- A declaration imports no asset if its specifier leads to none. -/
theorem plansAt_of_readClause? {before ts : List Token} {t : Token}
    (hcall : ts.head?.any (·.isPunct '(') = false)
    (h : ∀ bound source span rest, readClause? ts = some (bound, source, span, rest) →
      store.referenced? source = none) : plansAt store before t ts = false := by
  rw [plansAt, Option.any_eq_false]
  intro n hn
  obtain ⟨-, -, ⟨paren, rest, c, rfl, hparen, -, -⟩ | ⟨d, -, hd, rfl⟩⟩ := importNodeAt?_cases hn
  · simp [Token.isPunct, hparen] at hcall
  · obtain ⟨bound, rest, left, hread, -⟩ := exists_readClause?_of_declaration? hd
    simp [importOf?, h bound d.source d.sourceSpan rest hread]

theorem readClause?_of_sign {t : Token} {c : Char} (h : t.kind = .punct c) (ts : List Token) :
    readClause? (t :: ts) = clause? true 0 ⟨none, none⟩ (t :: ts) := by
  simp [readClause?, leadingString?, leadingDefault?, h]

/-- Up to a token that stops it, a clause passes over these tokens, and none of them imports. -/
structure Inert (store : AssetStore) (ts : List Token) : Prop where
  passed : ∀ {stop}, stop.stops = true → ∀ first depth found rest, ∃ found',
    clause? first depth found (ts ++ stop :: rest) = clause? false depth found' (stop :: rest)
  quiet : ∀ {stop}, stop.stops = true → ∀ before rest, Quiet store before ts (stop :: rest)

namespace Inert

variable {ts : List Token} {t s : Token} {c : Char} {name : String}

/-- In front of them a word imports nothing, unless it is a call. -/
theorem plansAt_word (h : Inert store (s :: ts)) (hs : s.kind = .punct c)
    (hcall : c = '(' → t.kind ≠ .ident "import") {stop : Token} (hstop : stop.stops = true)
    (before rest : List Token) :
    plansAt store before t (s :: ts ++ stop :: rest) = false := by
  by_cases hc : c = '('
  · exact plansAt_of_not_import (hcall hc)
  · refine plansAt_of_readClause? (by simp [Token.isPunct, hs, hc]) ?_
    rw [List.cons_append, readClause?_of_sign hs, ← List.cons_append]
    obtain ⟨found', hclause⟩ := h.passed hstop true 0 ⟨none, none⟩ rest
    rw [hclause, clause?_stops hstop]
    simp

theorem nil : Inert store [] where
  passed hstop first depth found rest := by
    refine ⟨found, ?_⟩
    rcases Token.stops_iff.mp hstop with h | h <;> simp [clause?, h]
  quiet _ _ _ := trivial

/-- A word at the end. -/
theorem word (ht : t.kind = .ident name) : Inert store [t] where
  passed {stop} hstop first depth found rest := by
    rcases Token.stops_iff.mp hstop with h | h <;> exact clause?_word ht h first depth found rest
  quiet {stop} hstop before rest := by
    refine ⟨plansAt_of_readClause? ?_ ?_, trivial⟩
    · rcases Token.stops_iff.mp hstop with h | h <;> simp [Token.isPunct, h]
    · have hread : readClause? (stop :: rest) = none := by
        rcases Token.stops_iff.mp hstop with h | h <;>
          rw [readClause?_of_sign h, clause?_stops hstop]
      rw [List.nil_append, hread]
      simp

/-- A word in front of a sign; no `import` is called. -/
theorem word_sign (h : Inert store (s :: ts)) (ht : t.kind = .ident name) (hs : s.kind = .punct c)
    (hcall : c = '(' → name ≠ "import") :
    Inert store (t :: s :: ts) where
  passed hstop first depth found rest := by
    obtain ⟨found', hword⟩ := clause?_word ht hs first depth found (ts ++ _ :: rest)
    obtain ⟨found'', hpassed⟩ := h.passed hstop false depth found' rest
    exact ⟨found'', hword.trans hpassed⟩
  quiet hstop before rest := by
    refine ⟨h.plansAt_word hs (fun hc hkind => hcall hc ?_) hstop before rest,
      h.quiet hstop _ rest⟩
    rw [ht] at hkind
    exact TokenKind.ident.inj hkind

theorem sign (h : Inert store ts) (hs : s.kind = .punct c) (hc : isClauseSign c = true) :
    Inert store (s :: ts) where
  passed hstop first depth found rest := by
    rw [List.cons_append, clause?_sign hs hc]
    exact h.passed hstop false depth found rest
  quiet hstop before rest :=
    ⟨plansAt_of_not_import (by rw [hs]; exact nofun), h.quiet hstop _ rest⟩

theorem string {value : String} (h : Inert store ts) (hs : s.kind = .str value) :
    Inert store (s :: ts) where
  passed hstop first depth found rest := by
    rw [List.cons_append, clause?_cons_other (by simp [hs]) (by simp [hs])]
    exact h.passed hstop false depth found rest
  quiet hstop before rest :=
    ⟨plansAt_of_not_import (by rw [hs]; exact nofun), h.quiet hstop _ rest⟩

theorem braces {close : Token} (h : Inert store ts) (ht : t.kind = .punct '\x7b')
    (hclose : close.kind = .punct '\x7d') : Inert store (t :: (ts ++ [close])) where
  passed hstop first depth found rest := by
    obtain ⟨found', hinner⟩ := h.passed (Token.stops_iff.mpr (.inr hclose)) false (depth + 1) found
      (_ :: rest)
    obtain ⟨found'', hbehind⟩ := (nil : Inert store []).passed hstop false depth found' rest
    refine ⟨found'', ?_⟩
    rw [List.cons_append, clause?_open ht, List.append_assoc, List.singleton_append, hinner,
      clause?_close hclose]
    exact hbehind
  quiet hstop before rest := by
    refine ⟨plansAt_of_not_import (by rw [ht]; exact nofun), Quiet.append ?_ ?_⟩
    · exact h.quiet (Token.stops_iff.mpr (.inr hclose)) _ _
    · exact ⟨plansAt_of_not_import (by rw [hclose]; exact nofun), trivial⟩

/-- A statement that binds a word to them. -/
theorem quiet_binding {first stop : Token} (h : Inert store ts)
    (hfirst : first.kind = .ident "const") (ht : t.kind = .ident name) (hs : s.kind = .punct '=')
    (hstop : stop.kind = .punct ';') (before behind : List Token) :
    Quiet store before (first :: t :: s :: (ts ++ [stop])) behind := by
  have hbound := (h.sign hs rfl).word_sign ht hs (fun h => absurd h (by decide))
  refine ⟨plansAt_of_not_import (by simp [hfirst]), Quiet.append (a := t :: s :: ts) ?_ ?_⟩
  · exact hbound.quiet (Token.stops_iff.mpr (.inl hstop)) _ _
  · exact ⟨plansAt_of_not_import (by simp [hstop]), trivial⟩

/-- A clause that lists them as names is read up to its specifier. -/
theorem readClause?_load {bracket close keyword source stop : Token} {value : String}
    (h : Inert store ts) (hbracket : bracket.kind = .punct '\x7b')
    (hclose : close.kind = .punct '\x7d') (hkeyword : keyword.kind = .ident "from")
    (hsource : source.kind = .str value) (behind : List Token) :
    ∃ found, readClause? (bracket :: (ts ++ [close, keyword, source, stop]) ++ behind) =
      some (found, value, source.span, stop :: behind) := by
  have hbehind : bracket :: (ts ++ [close, keyword, source, stop]) ++ behind =
      bracket :: (ts ++ close :: keyword :: source :: stop :: behind) := by simp
  obtain ⟨found, hpassed⟩ := h.passed (Token.stops_iff.mpr (.inr hclose)) false (0 + 1)
    ⟨none, none⟩ (keyword :: source :: stop :: behind)
  rw [hbehind, readClause?_of_sign hbracket, clause?_open hbracket, hpassed, clause?_close hclose]
  simp only [clause?, hkeyword, leadingString?, hsource]
  exact ⟨found, rfl⟩

/-- A declaration that lists them as names, from a specifier that leads to no asset. -/
theorem quiet_load {first bracket close keyword source stop : Token} {value : String}
    (h : Inert store ts) (hbracket : bracket.kind = .punct '\x7b')
    (hclose : close.kind = .punct '\x7d') (hkeyword : keyword.kind = .ident "from")
    (hsource : source.kind = .str value) (hstop : stop.kind = .punct ';')
    (href : store.referenced? value = none) (before behind : List Token) :
    Quiet store before (first :: bracket :: (ts ++ [close, keyword, source, stop])) behind := by
  refine ⟨plansAt_of_readClause? (by simp [Token.isPunct, hbracket]) ?_,
    plansAt_of_not_import (by simp [hbracket]), Quiet.append ?_ ?_⟩
  · obtain ⟨found, hclause⟩ := h.readClause?_load hbracket hclose hkeyword hsource behind
    rintro bound read span rest hread
    cases hclause.symm.trans hread
    exact href
  · exact h.quiet (Token.stops_iff.mpr (.inr hclose)) _ _
  · exact ⟨plansAt_of_not_import (by simp [hclose]), plansAt_of_not_import (by simp [hkeyword]),
      plansAt_of_not_import (by simp [hsource]), plansAt_of_not_import (by simp [hstop]), trivial⟩

theorem listed {names : List String} (pos : Nat) :
    Inert store (place pos (Piece.write (Piece.listed names))) := by
  fun_induction Piece.listed names generalizing pos with
  | case1 => exact nil
  | case2 name => exact .word rfl
  | case3 name next names ih =>
      exact ((ih _).sign rfl rfl).word_sign rfl rfl (fun h => absurd h (by decide))

end Inert

end Plan

end StyleBundler
