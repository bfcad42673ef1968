import StyleBundler.Proofs.Import.Node

/-!
The readers look at the kinds of tokens and not at where the tokens stand: from moved tokens they
read the moved nodes (`importNodesFrom_move`), and from two lists of tokens of the same kinds they
read nodes with the same target (`target_importNodeAt?_congr`).
-/

namespace StyleBundler.Script

variable {f : Nat → Nat}

/-- The token with its span moved. -/
def Token.move (f : Nat → Nat) (t : Token) : Token := ⟨t.kind, t.span.move f⟩

@[simp] theorem Token.kind_move (t : Token) : (t.move f).kind = t.kind := (rfl)

@[simp] theorem Token.isPunct_move (t : Token) (sign : Char) :
    (t.move f).isPunct sign = t.isPunct sign := (rfl)

@[simp] theorem Token.isIdent_move (t : Token) (name : String) :
    (t.move f).isIdent name = t.isIdent name := (rfl)

/-- The operand with its tokens moved. -/
def Operand.move (f : Nat → Nat) (o : Operand) : Operand :=
  ⟨o.tokens.map (Token.move f), o.hasPlus, o.rest.map (Token.move f)⟩

theorem Operand.read_move (depth : Nat) (ts : List Token) :
    Operand.read depth (ts.map (Token.move f)) = (Operand.read depth ts).move f := by
  induction ts generalizing depth with
  | nil => rfl
  | cons t ts ih =>
      have hlead : ∀ (depth : Nat) (plus : Bool),
          (Operand.read depth (ts.map (Token.move f))).lead (t.move f) plus =
            ((Operand.read depth ts).lead t plus).move f := by
        intro depth plus
        rw [ih]
        rfl
      rw [List.map_cons]
      by_cases hpunct : ∃ sign, t.kind = .punct sign
      · obtain ⟨sign, hkind⟩ := hpunct
        simp only [Operand.read, Token.kind_move, hkind, hlead]
        split
        · rfl
        · split
          · cases depth <;> rfl
          · split <;> rfl
      · have hother : ∀ sign, t.kind ≠ .punct sign := fun sign h => hpunct ⟨sign, h⟩
        rw [Operand.read_cons_of_ne_punct hother, ← hlead]
        exact Operand.read_cons_of_ne_punct (t := t.move f) hother depth _

theorem Operand.toExpr?_move (o : Operand) :
    (o.move f).toExpr? = o.toExpr?.map (Expr.move f) := by
  obtain ⟨tokens, hasPlus, rest⟩ := o
  match tokens with
  | [] => rfl
  | [⟨kind, span⟩] => cases kind <;> rfl
  | t :: u :: ts =>
      have hlast : (u.move f :: ts.map (Token.move f)).getLast (List.cons_ne_nil _ _) =
          ((u :: ts).getLast (List.cons_ne_nil _ _)).move f :=
        List.getLast_map (l := u :: ts) (List.cons_ne_nil _ _)
      simp only [Operand.move, List.map_cons, Operand.toExpr?, Option.map_some, hlast]
      cases hasPlus <;> rfl

theorem endsOperand_move (ts : List Token) :
    endsOperand (ts.map (Token.move f)) = endsOperand ts := by
  cases ts <;> rfl

theorem skipComma?_move (ts : List Token) :
    skipComma? (ts.map (Token.move f)) = (skipComma? ts).map (List.map (Token.move f)) := by
  cases ts with
  | nil => rfl
  | cons t ts =>
      simp only [List.map_cons, skipComma?, Token.isPunct_move, Option.map_some]
      split <;> rfl

theorem entryOperand_move (t : Token) (ts : List Token) :
    entryOperand (t.move f) (ts.map (Token.move f)) =
      ((entryOperand t ts).1, (entryOperand t ts).2.map (Token.move f)) := by
  have hkey : propertyKey? (t.move f) = propertyKey? t := rfl
  simp only [entryOperand, hkey]
  cases propertyKey? t with
  | none => rfl
  | some key =>
      cases ts with
      | nil => rfl
      | cons colon values =>
          simp only [List.map_cons, Token.isPunct_move]
          split <;> rfl

theorem readPlain?_move (ts : List Token) :
    readPlain? (ts.map (Token.move f)) =
      (readPlain? ts).map fun r => (r.1.move f, r.2.map (Token.move f)) := by
  rw [readPlain?_eq, readPlain?_eq, Operand.read_move, Operand.toExpr?_move, Option.map_map,
    Option.map_map]
  rfl

/-- An operand moves if the entries do, should it be an object literal. -/
theorem readExpr?_cons_move {t : Token} {ts : List Token}
    (hproperties : readProperties? (ts.map (Token.move f)) =
      (readProperties? ts).map fun r =>
        (moveProperties f r.1, f r.2.1, r.2.2.map (Token.move f))) :
    readExpr? ((t :: ts).map (Token.move f)) =
      (readExpr? (t :: ts)).map fun r => (r.1.move f, r.2.map (Token.move f)) := by
  have hplain := @readPlain?_move f (t :: ts)
  rw [List.map_cons] at hplain ⊢
  rw [readExpr?_cons, readExpr?_cons, Token.isPunct_move, hplain, hproperties]
  split
  · cases readProperties? ts with
    | none => rfl
    | some r =>
        simp only [Option.map_some, endsOperand_move]
        split <;> rfl
  · rfl

/-- The entries of an object literal move if the first value and the further entries do. -/
theorem readProperties?_cons_move {t : Token} {ts : List Token}
    (hvalue : readExpr? ((entryOperand t ts).2.map (Token.move f)) =
      (readExpr? (entryOperand t ts).2).map fun r => (r.1.move f, r.2.map (Token.move f)))
    (hfurther : ∀ rest : List Token, rest.length ≤ ts.length →
      readProperties? (rest.map (Token.move f)) =
        (readProperties? rest).map fun r =>
          (moveProperties f r.1, f r.2.1, r.2.2.map (Token.move f))) :
    readProperties? ((t :: ts).map (Token.move f)) =
      (readProperties? (t :: ts)).map fun r =>
        (moveProperties f r.1, f r.2.1, r.2.2.map (Token.move f)) := by
  have hoperand := length_entryOperand_le t ts
  rw [List.map_cons, readProperties?_cons, readProperties?_cons, Token.isPunct_move,
    entryOperand_move, hvalue]
  split
  · rfl
  cases hread : readExpr? (entryOperand t ts).2 with
  | none => rfl
  | some r =>
      obtain ⟨value, left⟩ := r
      have hleft := length_rest_readExpr?_lt hread
      simp only [Option.map_some, Option.bind_some, skipComma?_move]
      cases hskip : skipComma? left with
      | none => rfl
      | some rest =>
          have hrest := length_skipComma?_le hskip
          simp only [Option.map_some, Option.bind_some, hfurther rest (by omega)]
          cases readProperties? rest with
          | none => rfl
          | some r =>
              simp only [Option.map_some, moveProperties_append]
              cases (entryOperand t ts).1 <;> rfl

/-- The induction is on the length, a step of it from the entries of an object literal to their
operands. -/
theorem read_move (f : Nat → Nat) (n : Nat) :
    (∀ ts : List Token, 2 * ts.length ≤ n →
      readExpr? (ts.map (Token.move f)) =
        (readExpr? ts).map fun r => (r.1.move f, r.2.map (Token.move f))) ∧
      ∀ ts : List Token, 2 * ts.length + 1 ≤ n →
        readProperties? (ts.map (Token.move f)) =
          (readProperties? ts).map fun r =>
            (moveProperties f r.1, f r.2.1, r.2.2.map (Token.move f)) := by
  induction n with
  | zero =>
      refine ⟨?_, by omega⟩
      intro ts hle
      rw [List.eq_nil_of_length_eq_zero (by omega : ts.length = 0), List.map_nil, readExpr?_nil]
      rfl
  | succ n ih =>
      obtain ⟨ihExpr, ihProperties⟩ := ih
      constructor
      · intro ts hle
        cases ts with
        | nil => rw [List.map_nil, readExpr?_nil]; rfl
        | cons t ts =>
            simp only [List.length_cons] at hle
            exact readExpr?_cons_move (ihProperties ts (by omega))
      · intro ts hle
        cases ts with
        | nil => rw [List.map_nil, readProperties?_nil]; rfl
        | cons t ts =>
            simp only [List.length_cons] at hle
            have hoperand := length_entryOperand_le t ts
            exact readProperties?_cons_move (ihExpr _ (by omega))
              fun rest hrest => ihProperties rest (by omega)

theorem readExpr?_move (ts : List Token) :
    readExpr? (ts.map (Token.move f)) =
      (readExpr? ts).map fun r => (r.1.move f, r.2.map (Token.move f)) :=
  (read_move f (2 * ts.length)).1 ts (Nat.le_refl _)

theorem readProperties?_move (ts : List Token) :
    readProperties? (ts.map (Token.move f)) =
      (readProperties? ts).map fun r =>
        (moveProperties f r.1, f r.2.1, r.2.2.map (Token.move f)) :=
  (read_move f (2 * ts.length + 1)).2 ts (Nat.le_refl _)

theorem alias?_move (ts : List Token) : alias? (ts.map (Token.move f)) = alias? ts := by
  match ts with
  | [] | [_] => rfl
  | _ :: _ :: _ => rfl

theorem leadingString?_move (ts : List Token) :
    leadingString? (ts.map (Token.move f)) =
      (leadingString? ts).map fun r => (r.1, r.2.1.move f, r.2.2.map (Token.move f)) := by
  cases ts with
  | nil => rfl
  | cons t ts =>
      obtain ⟨kind, span⟩ := t
      cases kind <;> rfl

theorem leadingDefault?_move (ts : List Token) :
    leadingDefault? (ts.map (Token.move f)) = leadingDefault? ts := by
  match ts with
  | [] | [_] => rfl
  | _ :: _ :: _ => rfl

theorem clause?_move (first : Bool) (depth : Nat) (found : ClauseBindings) (ts : List Token) :
    clause? first depth found (ts.map (Token.move f)) =
      (clause? first depth found ts).map fun r =>
        (r.1, r.2.1, r.2.2.1.move f, r.2.2.2.map (Token.move f)) := by
  induction ts generalizing first depth found with
  | nil => rfl
  | cons t ts ih =>
      obtain ⟨kind, span⟩ := t
      cases kind with
      | punct sign =>
          simp only [List.map_cons, clause?, Token.move, alias?_move, ih]
          split
          · rfl
          · split
            · cases depth <;> rfl
            · split
              · rfl
              · split <;> rfl
      | ident name =>
          simp only [List.map_cons, clause?, Token.move, alias?_move, ih, leadingString?_move]
          split
          · rfl
          · split
            · cases leadingString? ts <;> rfl
            · rfl
      | _ => exact ih false depth found

theorem readClause?_move (ts : List Token) :
    readClause? (ts.map (Token.move f)) =
      (readClause? ts).map fun r =>
        (r.1, r.2.1, r.2.2.1.move f, r.2.2.2.map (Token.move f)) := by
  rw [readClause?, readClause?, leadingString?_move, leadingDefault?_move, clause?_move]
  cases leadingString? ts <;> rfl

theorem attributes?_move (ts : List Token) :
    attributes? (ts.map (Token.move f)) =
      (attributes? ts).map fun r => (r.1.map (Attributes.move f), r.2.map (Token.move f)) := by
  match ts with
  | [] | [_] => rfl
  | t :: brace :: rest =>
      rw [List.map_cons, List.map_cons, attributes?_cons_cons, attributes?_cons_cons,
        Token.kind_move, Token.isPunct_move]
      cases t.kind with
      | ident name =>
          dsimp only
          cases AttributeKeyword.ofText? name with
          | none => rfl
          | some keyword =>
              dsimp only
              split
              · rw [readProperties?_move]
                cases readProperties? rest <;> rfl
              · rfl
      | _ => rfl

theorem readOptions?_move (ts : List Token) :
    readOptions? (ts.map (Token.move f)) =
      (readOptions? ts).map fun r =>
        (r.1.map (ObjectLiteral.move f), r.2.map (Token.move f)) := by
  match ts with
  | [] => rfl
  | [t] =>
      simp only [List.map_cons, List.map_nil, readOptions?, Token.isPunct_move]
      split <;> rfl
  | t :: u :: ts =>
      have hread := @readExpr?_move f (u :: ts)
      rw [List.map_cons] at hread
      simp only [List.map_cons, readOptions?, callOptions?_cons, Token.isPunct_move, hread]
      split
      · split
        · rfl
        · cases readExpr? (u :: ts) with
          | none => rfl
          | some r =>
              obtain ⟨value, rest⟩ := r
              simp only [Option.map_some, Option.bind_some, skipComma?_move, asObject?_move]
              cases skipComma? rest <;> rfl
      · rfl

theorem declarationEnd_move (stop : Nat) (ts : List Token) :
    declarationEnd (f stop) (ts.map (Token.move f)) = f (declarationEnd stop ts) := by
  cases ts with
  | nil => rfl
  | cons t ts =>
      simp only [List.map_cons, declarationEnd, Token.isPunct_move]
      split <;> rfl

theorem declaration?_move (start : Nat) (ts : List Token) :
    (declaration? (f start) (ts.map (Token.move f))).map ImportNode.declaration =
      ((declaration? start ts).map ImportNode.declaration).map (ImportNode.move f) := by
  rw [declaration?_eq, declaration?_eq, readClause?_move]
  cases readClause? ts with
  | none => rfl
  | some r =>
      obtain ⟨bound, source, sourceSpan, rest⟩ := r
      simp only [Option.map_some, Option.bind_some, attributes?_move]
      cases attributes? rest with
      | none => rfl
      | some r =>
          obtain ⟨attributes, left⟩ := r
          have hstop :
              (((attributes.map (Attributes.move f)).map (·.entries.span)).getD
                (sourceSpan.move f)).stop =
                f ((attributes.map (·.entries.span)).getD sourceSpan).stop := by
            cases attributes <;> rfl
          simp only [Option.map_some, hstop, declarationEnd_move]
          rfl

theorem boundName?_move (before : List Token) :
    boundName? (before.map (Token.move f)) = boundName? before := by
  match before with
  | [] | [_] | [_, _] => rfl
  | _ :: _ :: _ :: _ => rfl

theorem callBinding?_move (call : Span) (before : List Token) :
    callBinding? (call.move f) (before.map (Token.move f)) =
      (callBinding? call before).map (CallBinding.move f) := by
  rw [callBinding?_eq, callBinding?_eq]
  cases before with
  | nil => rfl
  | cons t ts =>
      have hbound := @boundName?_move f (t :: ts)
      rw [List.map_cons] at hbound ⊢
      simp only [Token.isIdent_move, boundName?_move, hbound]
      split
      · cases boundName? ts <;> rfl
      · cases boundName? (t :: ts) <;> rfl

theorem call?_move (start : Nat) (before ts : List Token) :
    (call? (f start) (before.map (Token.move f)) (ts.map (Token.move f))).map ImportNode.call =
      ((call? start before ts).map ImportNode.call).map (ImportNode.move f) := by
  rw [call?_eq, call?_eq, readExpr?_move]
  cases readExpr? ts with
  | none => rfl
  | some r =>
      obtain ⟨argument, rest⟩ := r
      simp only [Option.map_some, Option.bind_some, readOptions?_move]
      cases readOptions? rest with
      | none => rfl
      | some r =>
          obtain ⟨options, left⟩ := r
          cases left with
          | nil => rfl
          | cons t left =>
              have hbinding := @callBinding?_move f ⟨start, t.span.stop⟩ before
              simp only [Span.move] at hbinding
              simp only [Option.map_some, Option.bind_some, List.map_cons, Token.isPunct_move]
              split
              · simp only [Token.move, Span.move, hbinding, Option.map_some, ImportNode.move]
              · rfl

theorem importNodeAt?_move (before : List Token) (t : Token) (ts : List Token) :
    importNodeAt? (before.map (Token.move f)) (t.move f) (ts.map (Token.move f)) =
      (importNodeAt? before t ts).map (ImportNode.move f) := by
  have hbefore : (before.map (Token.move f)).head?.any (·.isPunct '.') =
      before.head?.any (·.isPunct '.') := by
    cases before <;> rfl
  unfold importNodeAt?
  rw [Token.isIdent_move, hbefore]
  split
  · cases ts with
    | nil => rfl
    | cons next rest =>
        have hdeclaration := @declaration?_move f t.span.start (next :: rest)
        rw [List.map_cons] at hdeclaration ⊢
        simp only [Token.isPunct_move]
        split
        · exact call?_move t.span.start before rest
        · split
          · rfl
          · exact hdeclaration
  · rfl

/-- The nodes move with the tokens. -/
theorem importNodesFrom_move (before ts : List Token) :
    importNodesFrom (before.map (Token.move f)) (ts.map (Token.move f)) =
      (importNodesFrom before ts).map (ImportNode.move f) := by
  induction ts generalizing before with
  | nil => rfl
  | cons t ts ih =>
      have ih := ih (t :: before)
      rw [List.map_cons] at ih ⊢
      rw [importNodesFrom, importNodesFrom, ih, importNodeAt?_move, List.map_append]
      cases importNodeAt? before t ts <;> rfl

/-- What a node imports: whether a stylesheet, and by which specifier if that is known. -/
def ImportNode.target (n : ImportNode) : Bool × Option String :=
  (n.isCss, Import.specifierText? n.specifier)

theorem target_declaration?_move (start start' : Nat) (ts : List Token) :
    (declaration? start' (ts.map (Token.move f))).map (ImportNode.target ∘ .declaration) =
      (declaration? start ts).map (ImportNode.target ∘ .declaration) := by
  rw [declaration?_eq, declaration?_eq, readClause?_move]
  cases readClause? ts with
  | none => rfl
  | some r =>
      obtain ⟨bound, source, sourceSpan, rest⟩ := r
      simp only [Option.map_some, Option.bind_some, attributes?_move]
      cases attributes? rest with
      | none => rfl
      | some r =>
          obtain ⟨attributes, left⟩ := r
          cases attributes with
          | none => rfl
          | some a =>
              simp only [Option.map_some, Function.comp_apply, ImportNode.target, ImportNode.isCss,
                Import.isCssDeclaration, Option.any_some, Attributes.move, isCssType_move]
              rfl

theorem target_call?_move (start start' : Nat) (before before' ts : List Token) :
    (call? start' before' (ts.map (Token.move f))).map (ImportNode.target ∘ .call) =
      (call? start before ts).map (ImportNode.target ∘ .call) := by
  rw [call?_eq, call?_eq, readExpr?_move]
  cases readExpr? ts with
  | none => rfl
  | some r =>
      obtain ⟨argument, rest⟩ := r
      simp only [Option.map_some, Option.bind_some, readOptions?_move]
      cases readOptions? rest with
      | none => rfl
      | some r =>
          obtain ⟨options, left⟩ := r
          cases left with
          | nil => rfl
          | cons t left =>
              have htext : Import.specifierText? (argument.move f) =
                  Import.specifierText? argument := by
                cases argument <;> rfl
              have hcss (s s' : Span) (b b' : Option CallBinding) :
                  Import.cssKeyword? ⟨s', argument.move f, options.map (·.move f), b'⟩ =
                    Import.cssKeyword? ⟨s, argument, options, b⟩ := cssKeyword?_move f rfl
              simp only [Option.map_some, Option.bind_some, List.map_cons, Token.isPunct_move]
              split
              · simp only [Option.map_some, Function.comp_apply, ImportNode.target,
                  ImportNode.isCss, ImportNode.specifier, htext]
                rw [hcss]
              · rfl

theorem target_importNodeAt?_move {before before' : List Token}
    (hbefore : before'.head?.any (·.isPunct '.') = before.head?.any (·.isPunct '.'))
    (t : Token) (ts : List Token) :
    (importNodeAt? before' (t.move f) (ts.map (Token.move f))).map ImportNode.target =
      (importNodeAt? before t ts).map ImportNode.target := by
  unfold importNodeAt?
  rw [Token.isIdent_move, hbefore]
  split
  · cases ts with
    | nil => rfl
    | cons next rest =>
        have hdeclaration :=
          @target_declaration?_move f t.span.start (t.move f).span.start (next :: rest)
        rw [List.map_cons] at hdeclaration ⊢
        simp only [Token.isPunct_move]
        split
        · rw [Option.map_map, Option.map_map, target_call?_move]
        · split
          · rfl
          · rw [Option.map_map, Option.map_map, hdeclaration]
  · rfl

/-- Tokens of the same kinds are read as nodes that import the same. -/
theorem target_importNodeAt?_congr {before before' ts ts' : List Token} {t t' : Token}
    (hbefore : before'.head?.any (·.isPunct '.') = before.head?.any (·.isPunct '.'))
    (ht : t'.kind = t.kind) (hts : ts'.map Token.kind = ts.map Token.kind) :
    (importNodeAt? before' t' ts').map ImportNode.target =
      (importNodeAt? before t ts).map ImportNode.target := by
  have hmoved : ∀ us : List Token, us.map (Token.move fun _ => 0) =
      (us.map Token.kind).map fun kind => ⟨kind, ⟨0, 0⟩⟩ := by
    intro us
    rw [List.map_map]
    rfl
  have ht : t'.move (fun _ => 0) = t.move fun _ => 0 := by rw [Token.move, Token.move, ht]; rfl
  rw [← target_importNodeAt?_move (f := fun _ => 0) rfl t' ts', ht, hmoved, hts, ← hmoved,
    target_importNodeAt?_move hbefore]

end StyleBundler.Script
