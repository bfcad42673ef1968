import StyleBundler.Import.Classification
import StyleBundler.Proofs.Script.Respelling

/-!
Reading operands from redirected tokens. A token gives way to another only as the whole
argument of a call or right behind a word (`Placed`), so that no key and no value of an object
literal does; the readers then find in the redirected tokens what they found before, moved
(`read_redirect`).
-/

namespace StyleBundler.Script

mutual

/-- The expression with its spans moved. -/
def Expr.move (f : Nat → Nat) : Expr → Expr
  | .str s value => .str (s.move f) value
  | .template s chunks => .template (s.move f) chunks
  | .sum s => .sum (s.move f)
  | .ident s name => .ident (s.move f) name
  | .object s properties => .object (s.move f) (moveProperties f properties)
  | .other s => .other (s.move f)

def moveProperties (f : Nat → Nat) : List (String × Expr) → List (String × Expr)
  | [] => []
  | (key, value) :: properties => (key, value.move f) :: moveProperties f properties

end

@[simp] theorem moveProperties_append (f : Nat → Nat) (a b : List (String × Expr)) :
    moveProperties f (a ++ b) = moveProperties f a ++ moveProperties f b := by
  induction a with
  | nil => rfl
  | cons p a ih =>
      obtain ⟨key, value⟩ := p
      simp only [List.cons_append, moveProperties, ih]

/-- The kind of the one token that a literal is. -/
def Expr.literal? : Expr → Option TokenKind
  | .str _ value => some (.str value)
  | .template _ chunks => some (.template chunks)
  | _ => none

theorem Expr.isLiteral_of_literal? {e : Expr} {kind : TokenKind} (h : e.literal? = some kind) :
    kind.IsLiteral := by
  cases e with
  | str s value => cases h; exact .inl ⟨value, rfl⟩
  | template s chunks => cases h; exact .inr ⟨chunks, rfl⟩
  | _ => cases h

theorem Expr.eq_of_literal? {e e' : Expr} {kind : TokenKind} (h : e.literal? = some kind)
    (h' : e'.literal? = some kind) (hspan : e.span = e'.span) : e = e' := by
  cases e <;> cases h <;> cases e' <;> cases h'
  all_goals
    simp only [span] at hspan
    rw [hspan]

/-- The argument of a call, redirected if it is a literal with a new value. -/
def Expr.redirect (rs : Redirects) : Expr → Expr
  | .str s value => .str (s.move rs.moved) ((rs.lookup s).getD value)
  | .template s chunks =>
      (rs.lookup s).elim (.template (s.move rs.moved) chunks) (.str (s.move rs.moved))
  | e => e.move rs.moved

variable {rs : Redirects}

/-- The token is a literal with a new value. -/
def Redirects.Marks (rs : Redirects) (t : Token) : Prop :=
  t.kind.IsLiteral ∧ ∃ value, rs.lookup t.span = some value

namespace Token

@[simp] theorem span_redirect (t : Token) : (t.redirect rs).span = t.span.move rs.moved := rfl

theorem kind_redirect_eq_punct {t : Token} {sign : Char} :
    (t.redirect rs).kind = .punct sign ↔ t.kind = .punct sign := by
  obtain ⟨kind, span⟩ := t
  cases kind <;> simp only [redirect, TokenKind.redirect, reduceCtorEq]
  cases rs.lookup span <;> simp

theorem kind_redirect_eq_ident {t : Token} {name : String} :
    (t.redirect rs).kind = .ident name ↔ t.kind = .ident name := by
  obtain ⟨kind, span⟩ := t
  cases kind <;> simp only [redirect, TokenKind.redirect, reduceCtorEq]
  cases rs.lookup span <;> simp

@[simp] theorem isPunct_redirect (t : Token) (sign : Char) :
    (t.redirect rs).isPunct sign = t.isPunct sign := by
  rw [isPunct, isPunct, Bool.eq_iff_iff, beq_iff_eq, beq_iff_eq, kind_redirect_eq_punct]

@[simp] theorem isIdent_redirect (t : Token) (name : String) :
    (t.redirect rs).isIdent name = t.isIdent name := by
  rw [isIdent, isIdent, Bool.eq_iff_iff, beq_iff_eq, beq_iff_eq, kind_redirect_eq_ident]

theorem kind_redirect_of_not_marks {t : Token} (h : ¬ rs.Marks t) :
    (t.redirect rs).kind = t.kind := by
  obtain ⟨kind, span⟩ := t
  have hnone : ∀ kind', kind = kind' → kind'.IsLiteral → rs.lookup span = none := by
    rintro _ rfl hliteral
    rw [Option.eq_none_iff_forall_ne_some]
    intro value hvalue
    exact h ⟨hliteral, value, hvalue⟩
  cases kind with
  | str value =>
      simp only [redirect, hnone _ rfl (.inl ⟨value, rfl⟩), TokenKind.redirect_none]
  | template chunks =>
      simp only [redirect, hnone _ rfl (.inr ⟨chunks, rfl⟩), TokenKind.redirect_none]
  | _ => rfl

end Token

/-- What the readers give, without the proof that they took a token. -/
def readPlain? (ts : List Token) : Option (Expr × List Token) := (plainExpr? ts).map (·.1)

@[inherit_doc readPlain?]
def readExpr? (ts : List Token) : Option (Expr × List Token) := (expr? ts).map (·.1)

@[inherit_doc readPlain?]
def readProperties? (ts : List Token) : Option (List (String × Expr) × Nat × List Token) :=
  (properties? ts).map (·.1)

theorem readPlain?_eq (ts : List Token) :
    readPlain? ts =
      (Operand.read 0 ts).toExpr?.map fun e => (e, (Operand.read 0 ts).rest) := by
  unfold readPlain? plainExpr?
  dsimp only
  split
  · next h => simp only [Operand.toExpr?, h, Option.map_none]
  · rw [Option.map_map]
    rfl

theorem readExpr?_nil : readExpr? [] = none := by
  simp only [readExpr?, expr?, Option.map_none]

theorem readExpr?_cons (t : Token) (ts : List Token) :
    readExpr? (t :: ts) =
      if t.isPunct '\x7b' then
        match readProperties? ts with
        | some (found, stop, rest) =>
            if endsOperand rest then some (.object ⟨t.span.start, stop⟩ found, rest)
            else readPlain? (t :: ts)
        | none => readPlain? (t :: ts)
      else readPlain? (t :: ts) := by
  rw [readExpr?, expr?]
  split
  · rw [readProperties?]
    cases properties? ts with
    | none => rfl
    | some r =>
        obtain ⟨⟨found, stop, rest⟩, h⟩ := r
        simp only [Option.map_some]
        split
        · rfl
        · rfl
  · rfl

theorem readProperties?_nil : readProperties? [] = none := by
  simp only [readProperties?, properties?, Option.map_none]

theorem readProperties?_cons (t : Token) (ts : List Token) :
    readProperties? (t :: ts) =
      if t.isPunct '\x7d' then some ([], t.span.stop, ts)
      else
        (readExpr? (entryOperand t ts).2).bind fun (value, rest) =>
          (skipComma? rest).bind fun rest =>
            (readProperties? rest).map fun (found, stop, rest) =>
              (((entryOperand t ts).1.map (·, value)).toList ++ found, stop, rest) := by
  rw [readProperties?, properties?]
  split
  · rfl
  · rw [readExpr?]
    cases expr? (entryOperand t ts).2 with
    | none => rfl
    | some r =>
        obtain ⟨⟨value, rest⟩, h⟩ := r
        simp only [Option.map_some, Option.bind_some]
        split
        · next hskip => simp only [hskip, Option.map_none, Option.bind_none]
        · next rest' hskip =>
            simp only [hskip, Option.bind_some, readProperties?]
            cases properties? rest' <;> rfl

/-- Operands end where the text ends or a sign cannot continue them. -/
theorem Operand.endsOperand_rest (ts : List Token) :
    endsOperand (Operand.read 0 ts).rest = true := by
  have h : ∀ depth, endsOperand (Operand.read depth ts).rest = true := by
    intro depth
    fun_induction Operand.read depth ts with
    | case1 => rfl
    | case3 t ts c hkind _ hclose =>
        simp only [Bool.or_eq_true, decide_eq_true_eq] at hclose
        rcases hclose with (rfl | rfl) | rfl <;> simp [endsOperand, Token.isPunct, hkind]
    | case5 depth t ts c hkind _ _ hend =>
        simp only [Bool.and_eq_true, Bool.or_eq_true, decide_eq_true_eq] at hend
        rcases hend.1 with rfl | rfl <;> simp [endsOperand, Token.isPunct, hkind]
    | case2 _ _ _ _ _ _ ih | case4 _ _ _ _ _ _ _ ih | case6 _ _ _ _ _ _ _ _ ih
    | case7 _ _ _ _ ih => exact ih
  exact h 0

theorem Operand.read_of_endsOperand {ts : List Token} (h : endsOperand ts = true) :
    Operand.read 0 ts = ⟨[], false, ts⟩ := by
  cases ts with
  | nil => rfl
  | cons t ts =>
      simp only [endsOperand, Token.isPunct, Bool.or_eq_true, beq_iff_eq] at h
      rcases h with (((h | h) | h) | h) | h <;> simp [Operand.read, h]

theorem Operand.read_cons_of_ne_punct {t : Token} (h : ∀ sign, t.kind ≠ .punct sign) (depth : Nat)
    (ts : List Token) : Operand.read depth (t :: ts) = (Operand.read depth ts).lead t false := by
  rw [Operand.read.eq_def depth (t :: ts)]
  dsimp only
  split
  · next hkind => exact absurd hkind (h _)
  · rfl

theorem readPlain?_literal {ts rest : List Token} {e : Expr} {kind : TokenKind}
    (h : readPlain? ts = some (e, rest)) (hliteral : e.literal? = some kind) :
    ts = ⟨kind, e.span⟩ :: rest := by
  rw [readPlain?_eq] at h
  obtain ⟨found, hfound, hpair⟩ := Option.map_eq_some_iff.mp h
  obtain ⟨rfl, rfl⟩ := Prod.mk.inj hpair
  have htokens : (Operand.read 0 ts).tokens = [⟨kind, found.span⟩] := by
    unfold Operand.toExpr? at hfound
    split at hfound
    · cases hfound
    · next t htokens =>
        obtain ⟨tokenKind, span⟩ := t
        cases hfound
        cases tokenKind <;> cases hliteral <;> exact htokens
    · split at hfound <;> cases hfound <;> cases hliteral
  have happend := Operand.tokens_append_rest 0 ts
  rw [htokens] at happend
  exact happend.symm

theorem readPlain?_rest {ts rest : List Token} {e : Expr} (h : readPlain? ts = some (e, rest)) :
    rest <:+ ts ∧ endsOperand rest = true := by
  rw [readPlain?_eq] at h
  obtain ⟨found, -, hpair⟩ := Option.map_eq_some_iff.mp h
  obtain ⟨-, rfl⟩ := Prod.mk.inj hpair
  exact ⟨⟨_, Operand.tokens_append_rest 0 ts⟩, Operand.endsOperand_rest ts⟩

/-- A literal argument is one token, and ends the operand. -/
theorem readExpr?_literal {ts rest : List Token} {e : Expr} {kind : TokenKind}
    (h : readExpr? ts = some (e, rest)) (hliteral : e.literal? = some kind) :
    ts = ⟨kind, e.span⟩ :: rest ∧ endsOperand rest = true := by
  have hplain : readPlain? ts = some (e, rest) := by
    cases ts with
    | nil => cases readExpr?_nil.symm.trans h
    | cons t ts =>
        rw [readExpr?_cons] at h
        split at h
        · split at h
          · split at h
            · cases h
              cases hliteral
            · exact h
          · exact h
        · exact h
  exact ⟨readPlain?_literal hplain hliteral, (readPlain?_rest hplain).2⟩

/-- The operand that one token makes up. -/
def Token.operand (t : Token) : Expr :=
  match t.kind with
  | .str value => .str t.span value
  | .template chunks => .template t.span chunks
  | .ident name => .ident t.span name
  | _ => .other t.span

theorem Token.operand_redirect (t : Token) :
    (t.redirect rs).operand = t.operand.redirect rs := by
  obtain ⟨kind, span⟩ := t
  cases kind with
  | template chunks =>
      simp only [operand, Token.redirect, TokenKind.redirect, Expr.redirect]
      cases rs.lookup span <;> rfl
  | _ => rfl

theorem readExpr?_of_endsOperand {t : Token} {ts : List Token} (hkind : t.kind.IsLiteral)
    (hends : endsOperand ts = true) : readExpr? (t :: ts) = some (t.operand, ts) := by
  have hpunct : ∀ sign, t.kind ≠ .punct sign := by
    intro sign hsign
    rcases hkind with ⟨_, h⟩ | ⟨_, h⟩ <;> cases h.symm.trans hsign
  have hread : Operand.read 0 (t :: ts) = ⟨[t], false, ts⟩ := by
    rw [Operand.read_cons_of_ne_punct hpunct, Operand.read_of_endsOperand hends]
    rfl
  have hbrace : ¬ t.isPunct '\x7b' = true := fun h => hpunct _ (beq_iff_eq.mp h)
  rw [readExpr?_cons, if_neg hbrace, readPlain?_eq, hread]
  rfl

def Operand.redirect (rs : Redirects) (o : Operand) : Operand :=
  ⟨o.tokens.map (Token.redirect rs), o.hasPlus, o.rest.map (Token.redirect rs)⟩

theorem Operand.read_redirect (depth : Nat) (ts : List Token) :
    Operand.read depth (ts.map (Token.redirect rs)) = (Operand.read depth ts).redirect rs := by
  induction ts generalizing depth with
  | nil => rfl
  | cons t ts ih =>
      have hlead : ∀ (depth : Nat) (plus : Bool),
          (Operand.read depth (ts.map (Token.redirect rs))).lead (t.redirect rs) plus =
            ((Operand.read depth ts).lead t plus).redirect rs := by
        intro depth plus
        rw [ih]
        rfl
      rw [List.map_cons]
      by_cases hpunct : ∃ sign, t.kind = .punct sign
      · obtain ⟨sign, hkind⟩ := hpunct
        simp only [Operand.read, hkind, Token.kind_redirect_eq_punct.mpr hkind, hlead]
        split
        · rfl
        · split
          · cases depth <;> rfl
          · split <;> rfl
      · have hother : ∀ sign, t.kind ≠ .punct sign := fun sign h => hpunct ⟨sign, h⟩
        rw [Operand.read_cons_of_ne_punct hother, ← hlead,
          Operand.read_cons_of_ne_punct fun sign h =>
            hother sign (Token.kind_redirect_eq_punct.mp h)]

/-- Where no operand starts anew, no literal has a new value. -/
theorem Operand.toExpr?_redirect {o : Operand}
    (h : ∀ t ts, o.tokens = t :: ts → ¬ rs.Marks t) :
    (o.redirect rs).toExpr? = o.toExpr?.map (Expr.move rs.moved) := by
  obtain ⟨tokens, hasPlus, rest⟩ := o
  match tokens with
  | [] => rfl
  | [t] =>
      simp only [Operand.redirect, List.map_cons, List.map_nil, Operand.toExpr?,
        Token.kind_redirect_of_not_marks (h t [] rfl), Token.span_redirect, Option.map_some]
      cases t.kind <;> rfl
  | t :: u :: ts =>
      have hlast : (u.redirect rs :: ts.map (Token.redirect rs)).getLast (List.cons_ne_nil _ _) =
          ((u :: ts).getLast (List.cons_ne_nil _ _)).redirect rs :=
        List.getLast_map (l := u :: ts) (List.cons_ne_nil _ _)
      simp only [Operand.redirect, List.map_cons, Operand.toExpr?, Token.span_redirect,
        Option.map_some, hlast]
      cases hasPlus <;> rfl

theorem endsOperand_redirect (ts : List Token) :
    endsOperand (ts.map (Token.redirect rs)) = endsOperand ts := by
  cases ts with
  | nil => rfl
  | cons t ts => simp only [List.map_cons, endsOperand, Token.isPunct_redirect]

theorem skipComma?_redirect (ts : List Token) :
    skipComma? (ts.map (Token.redirect rs)) =
      (skipComma? ts).map (List.map (Token.redirect rs)) := by
  cases ts with
  | nil => rfl
  | cons t ts =>
      simp only [List.map_cons, skipComma?, Token.isPunct_redirect, Option.map_some]
      split <;> rfl

theorem skipComma?_suffix {ts rest : List Token} (h : skipComma? ts = some rest) : rest <:+ ts := by
  cases ts with
  | nil => cases h
  | cons t ts =>
      cases h
      split
      · exact List.suffix_cons t ts
      · exact List.suffix_rfl

theorem entryOperand_suffix (t : Token) (ts : List Token) : (entryOperand t ts).2 <:+ t :: ts := by
  unfold entryOperand
  split
  · split
    · exact (List.suffix_cons _ _).trans (List.suffix_cons _ _)
    · exact List.suffix_rfl
  · exact List.suffix_rfl

theorem length_rest_readExpr?_lt {ts rest : List Token} {e : Expr}
    (h : readExpr? ts = some (e, rest)) : rest.length < ts.length := by
  obtain ⟨⟨r, hlt⟩, -, hr⟩ := Option.map_eq_some_iff.mp h
  cases hr
  exact hlt

theorem readExpr?_ends {ts rest : List Token} {e : Expr} (h : readExpr? ts = some (e, rest)) :
    endsOperand rest = true := by
  cases ts with
  | nil => cases readExpr?_nil.symm.trans h
  | cons t ts =>
      rw [readExpr?_cons] at h
      split at h
      · split at h
        · split at h
          · next hends =>
              cases h
              exact hends
          · exact (readPlain?_rest h).2
        · exact (readPlain?_rest h).2
      · exact (readPlain?_rest h).2

/-- What a reader leaves is the end of what it was given. The induction is on the length, a step
of it from the entries of an object literal to their operands. -/
theorem read_suffix (n : Nat) :
    (∀ ts e rest, 2 * ts.length ≤ n → readExpr? ts = some (e, rest) → rest <:+ ts) ∧
      ∀ ts found stop rest, 2 * ts.length + 1 ≤ n →
        readProperties? ts = some (found, stop, rest) → rest <:+ ts := by
  induction n with
  | zero =>
      refine ⟨?_, by omega⟩
      intro ts e rest hle h
      rw [List.eq_nil_of_length_eq_zero (by omega : ts.length = 0), readExpr?_nil] at h
      cases h
  | succ n ih =>
      obtain ⟨ihExpr, ihProperties⟩ := ih
      constructor
      · intro ts e rest hle h
        cases ts with
        | nil => cases readExpr?_nil.symm.trans h
        | cons t ts =>
            simp only [List.length_cons] at hle
            rw [readExpr?_cons] at h
            split at h
            · split at h
              · next hproperties =>
                  split at h
                  · cases h
                    exact (ihProperties ts _ _ _ (by omega) hproperties).trans
                      (List.suffix_cons t ts)
                  · exact (readPlain?_rest h).1
              · exact (readPlain?_rest h).1
            · exact (readPlain?_rest h).1
      · intro ts found stop rest hle h
        cases ts with
        | nil => cases readProperties?_nil.symm.trans h
        | cons t ts =>
            simp only [List.length_cons] at hle
            rw [readProperties?_cons] at h
            split at h
            · cases h
              exact List.suffix_cons t _
            · obtain ⟨⟨value, left⟩, hvalue, h⟩ := Option.bind_eq_some_iff.mp h
              obtain ⟨left', hskip, h⟩ := Option.bind_eq_some_iff.mp h
              obtain ⟨⟨found', stop', rest'⟩, hfound, hr⟩ := Option.map_eq_some_iff.mp h
              cases hr
              have hoperand := length_entryOperand_le t ts
              have hleft := length_rest_readExpr?_lt hvalue
              have hleft' := length_skipComma?_le hskip
              exact (((ihProperties left' _ _ _ (by omega) hfound).trans
                (skipComma?_suffix hskip)).trans
                  (ihExpr _ _ _ (by omega) hvalue)).trans (entryOperand_suffix t ts)

/-- The place of a literal that can give way to another: the whole argument of a call, or a string
right behind a word. -/
def Foothold (a b : Token) (back : List Token) : Prop :=
  (a.kind = .punct '(' ∧ endsOperand back = true) ∨
    ((∃ name, a.kind = .ident name) ∧ ∃ value, b.kind = .str value)

/-- Each token with a new value has a foothold. -/
def Placed (rs : Redirects) (ts : List Token) : Prop :=
  ∀ front a b back, ts = front ++ a :: b :: back → rs.Marks b → Foothold a b back

/-- The first token has no new value. -/
def Unmarked (rs : Redirects) (ts : List Token) : Prop :=
  ∀ t back, ts = t :: back → ¬ rs.Marks t

theorem Placed.of_suffix {ts rest : List Token} (h : Placed rs ts) (hrest : rest <:+ ts) :
    Placed rs rest := by
  obtain ⟨taken, rfl⟩ := hrest
  intro front a b back heq
  exact h (taken ++ front) a b back (by rw [heq, List.append_assoc])

theorem Placed.tail {t : Token} {ts : List Token} (h : Placed rs (t :: ts)) : Placed rs ts :=
  h.of_suffix (List.suffix_cons t ts)

theorem not_marks_of_punct {t : Token} {sign : Char} (h : t.kind = .punct sign) :
    ¬ rs.Marks t := by
  rintro ⟨⟨_, hkind⟩ | ⟨_, hkind⟩, -⟩ <;> cases h.symm.trans hkind

/-- What follows a sign other than an opening parenthesis has no new value. -/
theorem Placed.unmarked {t : Token} {ts : List Token} (h : Placed rs (t :: ts)) {sign : Char}
    (hkind : t.kind = .punct sign) (hsign : sign ≠ '(') : Unmarked rs ts := by
  rintro u back rfl hmarks
  rcases h [] t u back rfl hmarks with ⟨hparen, -⟩ | ⟨⟨name, hname⟩, -⟩
  · cases hkind.symm.trans hparen
    exact hsign rfl
  · cases hkind.symm.trans hname

theorem kind_of_isPunct {t : Token} {sign : Char} (h : t.isPunct sign = true) :
    t.kind = .punct sign := beq_iff_eq.mp h

theorem unmarked_of_endsOperand {ts : List Token} (h : endsOperand ts = true) :
    Unmarked rs ts := by
  rintro t back rfl
  simp only [endsOperand, Bool.or_eq_true] at h
  rcases h with (((h | h) | h) | h) | h <;> exact not_marks_of_punct (kind_of_isPunct h)

theorem Placed.unmarked_skipComma? {ts rest : List Token} (h : Placed rs ts)
    (hends : endsOperand ts = true) (hskip : skipComma? ts = some rest) : Unmarked rs rest := by
  cases ts with
  | nil => cases hskip
  | cons t ts =>
      cases hskip
      split
      · next hcomma => exact h.unmarked (kind_of_isPunct hcomma) (by decide)
      · exact unmarked_of_endsOperand hends

theorem readPlain?_redirect {ts : List Token} (h : Unmarked rs ts) :
    readPlain? (ts.map (Token.redirect rs)) =
      (readPlain? ts).map fun r => (r.1.move rs.moved, r.2.map (Token.redirect rs)) := by
  have htokens : ∀ t taken, (Operand.read 0 ts).tokens = t :: taken → ¬ rs.Marks t := by
    intro t taken htokens
    have happend := Operand.tokens_append_rest 0 ts
    rw [htokens] at happend
    exact h t _ happend.symm
  rw [readPlain?_eq, readPlain?_eq, Operand.read_redirect, Operand.toExpr?_redirect htokens,
    Option.map_map, Option.map_map]
  rfl

theorem propertyKey?_redirect {t : Token} (h : ¬ rs.Marks t) :
    propertyKey? (t.redirect rs) = propertyKey? t := by
  rw [propertyKey?, propertyKey?, Token.kind_redirect_of_not_marks h]

theorem entryOperand_redirect {t : Token} (h : ¬ rs.Marks t) (ts : List Token) :
    entryOperand (t.redirect rs) (ts.map (Token.redirect rs)) =
      ((entryOperand t ts).1, (entryOperand t ts).2.map (Token.redirect rs)) := by
  simp only [entryOperand, propertyKey?_redirect h]
  cases propertyKey? t with
  | none => rfl
  | some key =>
      cases ts with
      | nil => rfl
      | cons colon values =>
          simp only [List.map_cons, Token.isPunct_redirect]
          split <;> rfl

theorem Placed.unmarked_entryOperand {t : Token} {ts : List Token} (h : Placed rs (t :: ts))
    (ht : Unmarked rs (t :: ts)) : Unmarked rs (entryOperand t ts).2 := by
  unfold entryOperand
  split
  · split
    · next hcolon => exact h.tail.unmarked (kind_of_isPunct hcolon) (by decide)
    · exact ht
  · exact ht

/-- An operand is read alike if the entries are, should it be an object literal. -/
theorem readExpr?_cons_redirect {t : Token} {ts : List Token} (h : Placed rs (t :: ts))
    (ht : Unmarked rs (t :: ts))
    (hproperties : Unmarked rs ts → readProperties? (ts.map (Token.redirect rs)) =
      (readProperties? ts).map fun r =>
        (moveProperties rs.moved r.1, rs.moved r.2.1, r.2.2.map (Token.redirect rs))) :
    readExpr? ((t :: ts).map (Token.redirect rs)) =
      (readExpr? (t :: ts)).map fun r => (r.1.move rs.moved, r.2.map (Token.redirect rs)) := by
  have hplain := readPlain?_redirect ht
  rw [List.map_cons] at hplain ⊢
  rw [readExpr?_cons, readExpr?_cons, Token.isPunct_redirect, hplain]
  split
  · next hbrace =>
      rw [hproperties (h.unmarked (kind_of_isPunct hbrace) (by decide))]
      cases readProperties? ts with
      | none => rfl
      | some r =>
          obtain ⟨found, stop, rest⟩ := r
          simp only [Option.map_some, endsOperand_redirect]
          split <;> rfl
  · rfl

/-- The entries of an object literal are read alike if the first value and the further entries
are. -/
theorem readProperties?_cons_redirect {t : Token} {ts : List Token} (h : Placed rs (t :: ts))
    (ht : Unmarked rs (t :: ts))
    (hvalue : readExpr? ((entryOperand t ts).2.map (Token.redirect rs)) =
      (readExpr? (entryOperand t ts).2).map fun r =>
        (r.1.move rs.moved, r.2.map (Token.redirect rs)))
    (hfurther : ∀ rest, rest.length ≤ ts.length → Placed rs rest → Unmarked rs rest →
      readProperties? (rest.map (Token.redirect rs)) =
        (readProperties? rest).map fun r =>
          (moveProperties rs.moved r.1, rs.moved r.2.1, r.2.2.map (Token.redirect rs))) :
    readProperties? ((t :: ts).map (Token.redirect rs)) =
      (readProperties? (t :: ts)).map fun r =>
        (moveProperties rs.moved r.1, rs.moved r.2.1, r.2.2.map (Token.redirect rs)) := by
  have hoperand := length_entryOperand_le t ts
  rw [List.map_cons, readProperties?_cons, readProperties?_cons, Token.isPunct_redirect,
    entryOperand_redirect (ht t ts rfl), hvalue]
  split
  · rfl
  cases hread : readExpr? (entryOperand t ts).2 with
  | none => rfl
  | some r =>
      obtain ⟨value, left⟩ := r
      have hleft := length_rest_readExpr?_lt hread
      have hplaced := (h.of_suffix (entryOperand_suffix t ts)).of_suffix
        ((read_suffix _).1 _ _ _ (Nat.le_refl _) hread)
      simp only [Option.map_some, Option.bind_some, skipComma?_redirect]
      cases hskip : skipComma? left with
      | none => rfl
      | some rest =>
          have hrest := length_skipComma?_le hskip
          simp only [Option.map_some, Option.bind_some]
          rw [hfurther rest (by omega) (hplaced.of_suffix (skipComma?_suffix hskip))
            (hplaced.unmarked_skipComma? (readExpr?_ends hread) hskip)]
          cases readProperties? rest with
          | none => rfl
          | some r =>
              simp only [Option.map_some, moveProperties_append]
              cases (entryOperand t ts).1 <;> rfl

/-- The readers find in redirected tokens what they found before, moved. -/
theorem read_redirect (n : Nat) :
    (∀ ts, 2 * ts.length ≤ n → Placed rs ts → Unmarked rs ts →
      readExpr? (ts.map (Token.redirect rs)) =
        (readExpr? ts).map fun r => (r.1.move rs.moved, r.2.map (Token.redirect rs))) ∧
      ∀ ts, 2 * ts.length + 1 ≤ n → Placed rs ts → Unmarked rs ts →
        readProperties? (ts.map (Token.redirect rs)) =
          (readProperties? ts).map fun r =>
            (moveProperties rs.moved r.1, rs.moved r.2.1, r.2.2.map (Token.redirect rs)) := by
  induction n with
  | zero =>
      refine ⟨?_, by omega⟩
      intro ts hle _ _
      rw [List.eq_nil_of_length_eq_zero (by omega : ts.length = 0), List.map_nil, readExpr?_nil]
      rfl
  | succ n ih =>
      obtain ⟨ihExpr, ihProperties⟩ := ih
      constructor
      · intro ts hle hplaced hunmarked
        cases ts with
        | nil => rw [List.map_nil, readExpr?_nil]; rfl
        | cons t ts =>
            simp only [List.length_cons] at hle
            exact readExpr?_cons_redirect hplaced hunmarked
              (ihProperties ts (by omega) hplaced.tail)
      · intro ts hle hplaced hunmarked
        cases ts with
        | nil => rw [List.map_nil, readProperties?_nil]; rfl
        | cons t ts =>
            simp only [List.length_cons] at hle
            have hoperand := length_entryOperand_le t ts
            refine readProperties?_cons_redirect hplaced hunmarked
              (ihExpr _ (by omega) (hplaced.of_suffix (entryOperand_suffix t ts))
                (hplaced.unmarked_entryOperand hunmarked)) ?_
            intro rest hrest
            exact ihProperties rest (by omega)

theorem readExpr?_redirect {ts : List Token} (hplaced : Placed rs ts) (h : Unmarked rs ts) :
    readExpr? (ts.map (Token.redirect rs)) =
      (readExpr? ts).map fun r => (r.1.move rs.moved, r.2.map (Token.redirect rs)) :=
  (read_redirect (2 * ts.length)).1 ts (Nat.le_refl _) hplaced h

theorem readProperties?_redirect {ts : List Token} (hplaced : Placed rs ts) (h : Unmarked rs ts) :
    readProperties? (ts.map (Token.redirect rs)) =
      (readProperties? ts).map fun r =>
        (moveProperties rs.moved r.1, rs.moved r.2.1, r.2.2.map (Token.redirect rs)) :=
  (read_redirect (2 * ts.length + 1)).2 ts (Nat.le_refl _) hplaced h

theorem Expr.redirect_eq_move {e : Expr}
    (h : ∀ kind, e.literal? = some kind → rs.lookup e.span = none) :
    e.redirect rs = e.move rs.moved := by
  cases e with
  | str s value =>
      have hnone : rs.lookup s = none := h _ rfl
      rw [redirect, hnone]
      rfl
  | template s chunks =>
      have hnone : rs.lookup s = none := h _ rfl
      rw [redirect, hnone]
      rfl
  | _ => rfl

/-- The argument of a call is redirected, and what it encloses stays. -/
theorem readArgument?_redirect {paren : Token} {ts : List Token}
    (hparen : paren.isPunct '(' = true) (h : Placed rs (paren :: ts)) :
    readExpr? (ts.map (Token.redirect rs)) =
      (readExpr? ts).map fun r => (r.1.redirect rs, r.2.map (Token.redirect rs)) := by
  cases ts with
  | nil => rw [List.map_nil, readExpr?_nil]; rfl
  | cons t ts =>
      by_cases hmarks : rs.Marks t
      · have hends : endsOperand ts = true := by
          rcases h [] paren t ts rfl hmarks with ⟨-, hends⟩ | ⟨⟨name, hname⟩, -⟩
          · exact hends
          · cases (kind_of_isPunct hparen).symm.trans hname
        have hkind : (t.redirect rs).kind.IsLiteral := by
          obtain ⟨hliteral, value, hvalue⟩ := hmarks
          rw [Token.redirect, hvalue, TokenKind.redirect_some hliteral]
          exact .inl ⟨value, rfl⟩
        rw [List.map_cons, readExpr?_of_endsOperand hkind ((endsOperand_redirect ts).trans hends),
          readExpr?_of_endsOperand hmarks.1 hends, Token.operand_redirect]
        rfl
      · have hunmarked : Unmarked rs (t :: ts) := by
          rintro u back heq
          cases heq
          exact hmarks
        rw [readExpr?_redirect h.tail hunmarked]
        cases hread : readExpr? (t :: ts) with
        | none => rfl
        | some r =>
            obtain ⟨e, rest⟩ := r
            have hmove : e.redirect rs = e.move rs.moved := by
              refine Expr.redirect_eq_move fun kind hkind => ?_
              obtain ⟨heq, -⟩ := readExpr?_literal hread hkind
              cases heq
              rw [Option.eq_none_iff_forall_ne_some]
              intro value hvalue
              exact hmarks ⟨Expr.isLiteral_of_literal? hkind, value, hvalue⟩
            rw [Option.map_some, Option.map_some, hmove]

end StyleBundler.Script
