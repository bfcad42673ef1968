import StyleBundler.Proofs.Script.Reading

/-!
The import nodes of redirected tokens. Where each token with a new value has a foothold, the
nodes are those of the tokens before, in order (`importNodesFrom_redirect`): each is moved, and
its specifier has its new value if it has one.
-/

namespace StyleBundler.Script

variable {rs : Redirects} {f : Nat → Nat}

def ObjectLiteral.move (f : Nat → Nat) (o : ObjectLiteral) : ObjectLiteral :=
  ⟨o.span.move f, moveProperties f o.properties⟩

def Attributes.move (f : Nat → Nat) (a : Attributes) : Attributes :=
  ⟨a.keyword, a.entries.move f⟩

def CallBinding.move (f : Nat → Nat) (b : CallBinding) : CallBinding :=
  { b with initialiser := b.initialiser.move f }

namespace ImportNode

/-- The node with all its spans moved. -/
def move (f : Nat → Nat) : ImportNode → ImportNode
  | .declaration d =>
      .declaration { d with
        span := d.span.move f
        sourceSpan := d.sourceSpan.move f
        attributes := d.attributes.map (·.move f) }
  | .call c =>
      .call ⟨c.span.move f, c.argument.move f, c.options.map (·.move f),
        c.binding.map (·.move f)⟩

def specifier : ImportNode → Expr
  | .declaration d => .str d.sourceSpan d.source
  | .call c => c.argument

/-- The node with a plain string in the place of its specifier. -/
def withSpecifier (value : String) : ImportNode → ImportNode
  | .declaration d => .declaration { d with source := value }
  | .call c => .call { c with argument := .str c.argument.span value }

/-- The node after the redirects. -/
def redirect (rs : Redirects) (n : ImportNode) : ImportNode :=
  match n.specifier.literal?, rs.lookup n.specifier.span with
  | some _, some value => (n.move rs.moved).withSpecifier value
  | _, _ => n.move rs.moved

end ImportNode

theorem alias?_redirect (ts : List Token) :
    alias? (ts.map (Token.redirect rs)) = alias? ts := by
  match ts with
  | [] | [_] => rfl
  | keyword :: name :: ts =>
      obtain ⟨kind, span⟩ := name
      simp only [List.map_cons, alias?, Token.isIdent_redirect]
      cases kind with
      | template chunks =>
          simp only [Token.redirect, TokenKind.redirect]
          cases rs.lookup span <;> rfl
      | _ => rfl

theorem Placed.leadingString?_redirect {word : Token} {ts : List Token} {name : String}
    (hword : word.kind = .ident name) (h : Placed rs (word :: ts)) :
    leadingString? (ts.map (Token.redirect rs)) =
      (leadingString? ts).map fun r =>
        ((rs.lookup r.2.1).getD r.1, r.2.1.move rs.moved, r.2.2.map (Token.redirect rs)) := by
  cases ts with
  | nil => rfl
  | cons t ts =>
      obtain ⟨kind, span⟩ := t
      cases kind with
      | template chunks =>
          have hmarks : ¬ rs.Marks ⟨.template chunks, span⟩ := by
            intro hmarks
            rcases h [] word _ ts rfl hmarks with ⟨hparen, -⟩ | ⟨-, value, hvalue⟩
            · cases hword.symm.trans hparen
            · cases hvalue
          simp only [List.map_cons, leadingString?, Token.kind_redirect_of_not_marks hmarks]
          rfl
      | _ => rfl

theorem attributes?_cons_cons (t brace : Token) (rest : List Token) :
    attributes? (t :: brace :: rest) =
      match t.kind with
      | .ident name =>
          match AttributeKeyword.ofText? name with
          | some keyword =>
              if brace.isPunct '\x7b' then
                (readProperties? rest).map fun (found, stop, rest) =>
                  (some ⟨keyword, ⟨⟨brace.span.start, stop⟩, found⟩⟩, rest)
              else some (none, t :: brace :: rest)
          | none => some (none, t :: brace :: rest)
      | _ => some (none, t :: brace :: rest) := by
  rw [attributes?]
  cases t.kind with
  | ident name =>
      dsimp only
      cases AttributeKeyword.ofText? name with
      | none => rfl
      | some keyword =>
          dsimp only
          split
          · rw [readProperties?, Option.map_map]
            rfl
          · rfl
  | _ => rfl

theorem attributes?_cons_other {t : Token} (h : ∀ name, t.kind ≠ .ident name) (ts : List Token) :
    attributes? (t :: ts) = some (none, t :: ts) := by
  cases ts with
  | nil => rfl
  | cons brace rest =>
      rw [attributes?_cons_cons]
      split
      · next hkind => exact absurd hkind (h _)
      · rfl

theorem callOptions?_cons (t : Token) (ts : List Token) :
    callOptions? (t :: ts) =
      if t.isPunct ')' then some (none, t :: ts)
      else
        (readExpr? (t :: ts)).bind fun (value, rest) =>
          (skipComma? rest).map fun rest => (value.asObject?, rest) := by
  rw [callOptions?]
  split
  · rfl
  · rw [readExpr?]
    cases expr? (t :: ts) with
    | none => rfl
    | some r =>
        obtain ⟨⟨value, rest⟩, h⟩ := r
        simp only [Option.map_some, Option.bind_eq_bind, Option.bind_some]
        cases skipComma? rest <;> rfl

/-- The options of a call and the tokens behind them, given those behind its argument. -/
def readOptions? : List Token → Option (Option ObjectLiteral × List Token)
  | [] => none
  | t :: ts => if t.isPunct ',' then callOptions? ts else some (none, t :: ts)

theorem call?_eq (start : Nat) (before ts : List Token) :
    call? start before ts =
      (readExpr? ts).bind fun (argument, rest) =>
        (readOptions? rest).bind fun (options, rest) =>
          match rest with
          | t :: _ =>
              if t.isPunct ')' then
                some ⟨⟨start, t.span.stop⟩, argument, options,
                  callBinding? ⟨start, t.span.stop⟩ before⟩
              else none
          | [] => none := by
  rw [call?, readExpr?]
  cases expr? ts with
  | none => rfl
  | some r =>
      obtain ⟨⟨argument, rest⟩, h⟩ := r
      simp only [Option.map_some, Option.bind_eq_bind, Option.bind_some, readOptions?]
      cases rest with
      | nil => rfl
      | cons t ts =>
          dsimp only
          split <;> rfl

theorem clause?_cons_other {t : Token} (hpunct : ∀ sign, t.kind ≠ .punct sign)
    (hident : ∀ name, t.kind ≠ .ident name) (first : Bool) (depth : Nat) (found : ClauseBindings)
    (ts : List Token) : clause? first depth found (t :: ts) = clause? false depth found ts := by
  rw [clause?.eq_def first depth found (t :: ts)]
  dsimp only
  split
  · next hkind => exact absurd hkind (hpunct _)
  · next hkind => exact absurd hkind (hident _)
  · rfl

theorem Placed.clause?_redirect (first : Bool) (depth : Nat) (found : ClauseBindings)
    {ts : List Token} (h : Placed rs ts) :
    clause? first depth found (ts.map (Token.redirect rs)) =
      (clause? first depth found ts).map fun r =>
        (r.1, (rs.lookup r.2.2.1).getD r.2.1, r.2.2.1.move rs.moved,
          r.2.2.2.map (Token.redirect rs)) := by
  induction ts generalizing first depth found with
  | nil => rfl
  | cons t ts ih =>
      have ih := fun first depth found => ih first depth found h.tail
      rw [List.map_cons]
      by_cases hpunct : ∃ sign, t.kind = .punct sign
      · obtain ⟨sign, hkind⟩ := hpunct
        simp only [clause?, hkind, Token.kind_redirect_eq_punct.mpr hkind, alias?_redirect, ih]
        split
        · rfl
        · split
          · cases depth <;> rfl
          · split
            · rfl
            · split <;> rfl
      by_cases hident : ∃ name, t.kind = .ident name
      · obtain ⟨name, hkind⟩ := hident
        simp only [clause?, hkind, Token.kind_redirect_eq_ident.mpr hkind, alias?_redirect, ih,
          h.leadingString?_redirect hkind]
        split
        · rfl
        · split
          · cases leadingString? ts <;> rfl
          · rfl
      · have hpunct' : ∀ sign, t.kind ≠ .punct sign := fun sign hkind => hpunct ⟨sign, hkind⟩
        have hident' : ∀ name, t.kind ≠ .ident name := fun name hkind => hident ⟨name, hkind⟩
        rw [clause?_cons_other hpunct' hident',
          clause?_cons_other
            (fun sign hkind => hpunct' sign (Token.kind_redirect_eq_punct.mp hkind))
            (fun name hkind => hident' name (Token.kind_redirect_eq_ident.mp hkind)), ih]

theorem leadingDefault?_redirect (ts : List Token) :
    leadingDefault? (ts.map (Token.redirect rs)) = leadingDefault? ts := by
  cases ts with
  | nil => rfl
  | cons t ts =>
      obtain ⟨kind, span⟩ := t
      have hhead : (ts.map (Token.redirect rs)).head?.any (·.isIdent "from") =
          ts.head?.any (·.isIdent "from") := by
        cases ts with
        | nil => rfl
        | cons t ts => exact Token.isIdent_redirect t "from"
      simp only [List.map_cons, leadingDefault?, hhead]
      cases kind with
      | template chunks =>
          simp only [Token.redirect, TokenKind.redirect]
          cases rs.lookup span <;> rfl
      | _ => rfl

theorem attributes?_redirect {ts : List Token} (h : Placed rs ts) :
    attributes? (ts.map (Token.redirect rs)) =
      (attributes? ts).map fun r =>
        (r.1.map (Attributes.move rs.moved), r.2.map (Token.redirect rs)) := by
  match ts with
  | [] | [_] => rfl
  | t :: brace :: rest =>
      by_cases hident : ∃ name, t.kind = .ident name
      · obtain ⟨name, hkind⟩ := hident
        rw [List.map_cons, List.map_cons, attributes?_cons_cons, attributes?_cons_cons]
        simp only [hkind, Token.kind_redirect_eq_ident.mpr hkind, Token.isPunct_redirect]
        cases AttributeKeyword.ofText? name with
        | none => rfl
        | some keyword =>
            dsimp only
            split
            · next hbrace =>
                have hrest := h.tail.unmarked (kind_of_isPunct hbrace) (by decide)
                rw [readProperties?_redirect h.tail.tail hrest]
                cases readProperties? rest <;> rfl
            · rfl
      · have hident' : ∀ name, t.kind ≠ .ident name := fun name hkind => hident ⟨name, hkind⟩
        rw [List.map_cons, attributes?_cons_other hident', attributes?_cons_other fun name hkind =>
          hident' name (Token.kind_redirect_eq_ident.mp hkind)]
        rfl

/-- The bindings of a declaration, its specifier and the tokens behind it. -/
def readClause? (ts : List Token) : Option (ClauseBindings × String × Span × List Token) :=
  match leadingString? ts with
  | some (value, span, rest) => some (⟨none, none⟩, value, span, rest)
  | none => clause? true 0 ⟨leadingDefault? ts, none⟩ ts

theorem leadingString?_eq_some {ts rest : List Token} {value : String} {span : Span}
    (h : leadingString? ts = some (value, span, rest)) : ts = ⟨.str value, span⟩ :: rest := by
  cases ts with
  | nil => cases h
  | cons t ts =>
      obtain ⟨kind, tokenSpan⟩ := t
      cases kind <;> cases h
      rfl

theorem clause?_foothold {first : Bool} {depth : Nat} {found bound : ClauseBindings}
    {ts rest : List Token} {value : String} {span : Span}
    (h : clause? first depth found ts = some (bound, value, span, rest)) :
    ∃ front a name, ts = front ++ a :: ⟨.str value, span⟩ :: rest ∧ a.kind = .ident name := by
  have hcons : ∀ {t : Token} {ts : List Token},
      (∃ front a name, ts = front ++ a :: ⟨.str value, span⟩ :: rest ∧ a.kind = .ident name) →
      ∃ front a name, t :: ts = front ++ a :: ⟨.str value, span⟩ :: rest ∧
        a.kind = .ident name := by
    rintro t ts ⟨front, a, name, rfl, hname⟩
    exact ⟨t :: front, a, name, rfl, hname⟩
  fun_induction clause? first depth found ts with
  | case1 | case3 | case5 => cases h
  | case9 first depth found t ts name hname _ _ value' span' rest' hstring =>
      cases h
      exact ⟨[], t, name, by rw [leadingString?_eq_some hstring]; rfl, hname⟩
  | _ =>
      rename_i ih
      exact hcons (ih h)

/-- The specifier of a declaration stands right behind a word. -/
theorem readClause?_foothold {word : Token} {ts rest : List Token} {name : String}
    {bound : ClauseBindings} {value : String} {span : Span} (hword : word.kind = .ident name)
    (h : readClause? ts = some (bound, value, span, rest)) :
    ∃ front a name, word :: ts = front ++ a :: ⟨.str value, span⟩ :: rest ∧
      a.kind = .ident name := by
  unfold readClause? at h
  split at h
  · next hstring =>
      cases h
      exact ⟨[], word, name, by rw [leadingString?_eq_some hstring]; rfl, hword⟩
  · obtain ⟨front, a, name, rfl, hname⟩ := clause?_foothold h
    exact ⟨word :: front, a, name, rfl, hname⟩

theorem Placed.readClause?_redirect {word : Token} {ts : List Token} {name : String}
    (hword : word.kind = .ident name) (h : Placed rs (word :: ts)) :
    readClause? (ts.map (Token.redirect rs)) =
      (readClause? ts).map fun r =>
        (r.1, (rs.lookup r.2.2.1).getD r.2.1, r.2.2.1.move rs.moved,
          r.2.2.2.map (Token.redirect rs)) := by
  rw [readClause?, readClause?, h.leadingString?_redirect hword, leadingDefault?_redirect,
    h.tail.clause?_redirect]
  cases leadingString? ts <;> rfl

/-- Where a declaration ends, given where it ends without a semicolon. -/
def declarationEnd (stop : Nat) : List Token → Nat
  | t :: _ => if t.isPunct ';' then t.span.stop else stop
  | [] => stop

theorem declaration?_eq (start : Nat) (ts : List Token) :
    declaration? start ts =
      (readClause? ts).bind fun (bound, source, sourceSpan, rest) =>
        (attributes? rest).map fun (attributes, rest) =>
          ⟨⟨start, declarationEnd ((attributes.map (·.entries.span)).getD sourceSpan).stop rest⟩,
            bound.defaultName, bound.namespaceName, source, sourceSpan, attributes⟩ := by
  have hread : ∀ (bound : ClauseBindings) (source : String) (sourceSpan : Span)
      (rest : List Token),
      (do
        let (attributes, rest) ← attributes? rest
        let stop := ((attributes.map (·.entries.span)).getD sourceSpan).stop
        let stop :=
          match rest with
          | t :: _ => if t.isPunct ';' then t.span.stop else stop
          | [] => stop
        some (⟨⟨start, stop⟩, bound.defaultName, bound.namespaceName, source, sourceSpan,
          attributes⟩ : ImportDeclaration)) =
        (attributes? rest).map fun (attributes, rest) =>
          ⟨⟨start, declarationEnd ((attributes.map (·.entries.span)).getD sourceSpan).stop rest⟩,
            bound.defaultName, bound.namespaceName, source, sourceSpan, attributes⟩ := by
    intro bound source sourceSpan rest
    cases attributes? rest with
    | none => rfl
    | some r =>
        obtain ⟨attributes, rest⟩ := r
        cases rest <;> rfl
  rw [declaration?, readClause?]
  cases leadingString? ts with
  | some r => exact hread _ _ _ _
  | none =>
      cases clause? true 0 ⟨leadingDefault? ts, none⟩ ts with
      | none => rfl
      | some r => exact hread _ _ _ _

theorem declarationEnd_redirect (stop : Nat) (ts : List Token) :
    declarationEnd (rs.moved stop) (ts.map (Token.redirect rs)) =
      rs.moved (declarationEnd stop ts) := by
  cases ts with
  | nil => rfl
  | cons t ts =>
      simp only [List.map_cons, declarationEnd, Token.isPunct_redirect]
      split <;> rfl

theorem declaration?_redirect (start : Nat) {word : Token} {ts : List Token} {name : String}
    (hword : word.kind = .ident name) (h : Placed rs (word :: ts)) :
    (declaration? (rs.moved start) (ts.map (Token.redirect rs))).map ImportNode.declaration =
      ((declaration? start ts).map ImportNode.declaration).map (ImportNode.redirect rs) := by
  rw [declaration?_eq, declaration?_eq, h.readClause?_redirect hword]
  cases hclause : readClause? ts with
  | none => rfl
  | some r =>
      obtain ⟨bound, source, sourceSpan, rest⟩ := r
      obtain ⟨front, a, aName, heq, -⟩ := readClause?_foothold hword hclause
      have hrest : Placed rs rest :=
        h.of_suffix ⟨front ++ [a, ⟨.str source, sourceSpan⟩], by simp [heq]⟩
      simp only [Option.map_some, Option.bind_some, attributes?_redirect hrest]
      cases attributes? rest with
      | none => rfl
      | some r =>
          obtain ⟨attributes, rest⟩ := r
          have hstop :
              (((attributes.map (Attributes.move rs.moved)).map (·.entries.span)).getD
                (sourceSpan.move rs.moved)).stop =
                rs.moved ((attributes.map (·.entries.span)).getD sourceSpan).stop := by
            cases attributes <;> rfl
          simp only [Option.map_some, hstop, declarationEnd_redirect, ImportNode.redirect,
            ImportNode.specifier, Expr.literal?, Expr.span]
          cases rs.lookup sourceSpan <;> rfl

/-- The variable of the words before a call, the nearest first. -/
def boundName? : List Token → Option String
  | sign :: name :: keyword :: _ =>
      if sign.isPunct '=' && (keyword.isIdent "const" || keyword.isIdent "let" ||
          keyword.isIdent "var") then
        match name.kind with
        | .ident name => some name
        | _ => none
      else none
  | _ => none

theorem boundName?_redirect (rs : Redirects) (before : List Token) :
    boundName? (before.map (Token.redirect rs)) = boundName? before := by
  match before with
  | [] | [_] | [_, _] => rfl
  | sign :: name :: keyword :: before =>
      obtain ⟨kind, span⟩ := name
      simp only [List.map_cons, boundName?, Token.isPunct_redirect, Token.isIdent_redirect]
      cases kind with
      | template chunks =>
          simp only [Token.redirect, TokenKind.redirect]
          cases rs.lookup span <;> rfl
      | _ => rfl

theorem callBinding?_eq (call : Span) (before : List Token) :
    callBinding? call before =
      match before with
      | t :: ts =>
          if t.isIdent "await" then
            (boundName? ts).map fun name => ⟨name, true, ⟨t.span.start, call.stop⟩⟩
          else (boundName? before).map fun name => ⟨name, false, call⟩
      | [] => none := by
  have hbound : ∀ (ts : List Token) (awaited : Bool) (start : Nat),
      (match ts with
        | sign :: name :: keyword :: _ =>
            if sign.isPunct '=' && (keyword.isIdent "const" || keyword.isIdent "let" ||
                keyword.isIdent "var") then
              match name.kind with
              | .ident name => some (⟨name, awaited, ⟨start, call.stop⟩⟩ : CallBinding)
              | _ => none
            else none
        | _ => none) =
        (boundName? ts).map fun name => ⟨name, awaited, ⟨start, call.stop⟩⟩ := by
    intro ts awaited start
    match ts with
    | [] | [_] | [_, _] => rfl
    | sign :: name :: keyword :: _ =>
        simp only [boundName?]
        split
        · cases name.kind <;> rfl
        · rfl
  cases before with
  | nil => rfl
  | cons t ts =>
      by_cases hawait : t.isIdent "await" = true
      · simp only [callBinding?, hawait, if_true]
        exact hbound ts true t.span.start
      · simp only [callBinding?, hawait]
        exact hbound (t :: ts) false call.start

theorem callBinding?_redirect (rs : Redirects) (call : Span) (before : List Token) :
    callBinding? (call.move rs.moved) (before.map (Token.redirect rs)) =
      (callBinding? call before).map (CallBinding.move rs.moved) := by
  rw [callBinding?_eq, callBinding?_eq]
  cases before with
  | nil => rfl
  | cons t ts =>
      have hbound := boundName?_redirect rs (t :: ts)
      rw [List.map_cons] at hbound ⊢
      simp only [Token.isIdent_redirect, boundName?_redirect, hbound]
      split
      · cases boundName? ts <;> rfl
      · cases boundName? (t :: ts) <;> rfl

theorem asObject?_move (e : Expr) :
    (e.move f).asObject? = e.asObject?.map (ObjectLiteral.move f) := by
  cases e <;> rfl

theorem callOptions?_redirect {ts : List Token} (h : Placed rs ts) (hfirst : Unmarked rs ts) :
    callOptions? (ts.map (Token.redirect rs)) =
      (callOptions? ts).map fun r =>
        (r.1.map (ObjectLiteral.move rs.moved), r.2.map (Token.redirect rs)) := by
  cases ts with
  | nil => rfl
  | cons t ts =>
      have hread := readExpr?_redirect h hfirst
      rw [List.map_cons] at hread ⊢
      rw [callOptions?_cons, callOptions?_cons, Token.isPunct_redirect, hread]
      split
      · rfl
      · cases readExpr? (t :: ts) with
        | none => rfl
        | some r =>
            obtain ⟨value, rest⟩ := r
            simp only [Option.map_some, Option.bind_some, skipComma?_redirect, asObject?_move]
            cases skipComma? rest <;> rfl

theorem readOptions?_redirect {ts : List Token} (h : Placed rs ts) :
    readOptions? (ts.map (Token.redirect rs)) =
      (readOptions? ts).map fun r =>
        (r.1.map (ObjectLiteral.move rs.moved), r.2.map (Token.redirect rs)) := by
  cases ts with
  | nil => rfl
  | cons t ts =>
      rw [List.map_cons, readOptions?, readOptions?, Token.isPunct_redirect]
      split
      · next hcomma =>
          exact callOptions?_redirect h.tail (h.unmarked (kind_of_isPunct hcomma) (by decide))
      · rfl

theorem call?_redirect (start : Nat) (before : List Token) {ts : List Token}
    {paren : Token} (hparen : paren.isPunct '(' = true) (h : Placed rs (paren :: ts)) :
    (call? (rs.moved start) (before.map (Token.redirect rs))
        (ts.map (Token.redirect rs))).map ImportNode.call =
      ((call? start before ts).map ImportNode.call).map (ImportNode.redirect rs) := by
  rw [call?_eq, call?_eq, readArgument?_redirect hparen h]
  cases hread : readExpr? ts with
  | none => rfl
  | some r =>
      obtain ⟨argument, rest⟩ := r
      have hrest : Placed rs rest :=
        h.tail.of_suffix ((read_suffix _).1 _ _ _ (Nat.le_refl _) hread)
      simp only [Option.map_some, Option.bind_some, readOptions?_redirect hrest]
      cases readOptions? rest with
      | none => rfl
      | some r =>
          obtain ⟨options, rest⟩ := r
          cases rest with
          | nil => rfl
          | cons t ts =>
              have hbinding := callBinding?_redirect rs ⟨start, t.span.stop⟩ before
              simp only [Span.move] at hbinding
              simp only [Option.map_some, Option.bind_some, List.map_cons, Token.isPunct_redirect,
                Token.span_redirect, Span.move, hbinding]
              split
              · simp only [Option.map_some, ImportNode.redirect, ImportNode.specifier]
                cases argument with
                | str s value | template s chunks =>
                    simp only [Expr.literal?, Expr.span, Expr.redirect]
                    cases rs.lookup s <;> rfl
                | _ => rfl
              · rfl

/-- What a declaration holds, and the readings it is put together from. -/
theorem exists_readClause?_of_declaration? {start : Nat} {ts : List Token}
    {d : ImportDeclaration} (h : declaration? start ts = some d) :
    ∃ bound rest left, readClause? ts = some (bound, d.source, d.sourceSpan, rest) ∧
      attributes? rest = some (d.attributes, left) ∧
      d.defaultBinding = bound.defaultName ∧ d.namespaceBinding = bound.namespaceName ∧
      d.span = ⟨start,
        declarationEnd ((d.attributes.map (·.entries.span)).getD d.sourceSpan).stop left⟩ := by
  rw [declaration?_eq] at h
  obtain ⟨⟨bound, source, span, rest⟩, hclause, h⟩ := Option.bind_eq_some_iff.mp h
  obtain ⟨⟨attributes, left⟩, hattributes, hd⟩ := Option.map_eq_some_iff.mp h
  cases hd
  exact ⟨bound, rest, left, hclause, hattributes, rfl, rfl, rfl⟩

/-- What a call holds, and the readings it is put together from. -/
theorem exists_readExpr?_of_call? {start : Nat} {before ts : List Token} {c : ImportCall}
    (h : call? start before ts = some c) :
    ∃ rest z left, readExpr? ts = some (c.argument, rest) ∧
      readOptions? rest = some (c.options, z :: left) ∧ z.isPunct ')' = true ∧
      c.span = ⟨start, z.span.stop⟩ ∧ c.binding = callBinding? c.span before := by
  rw [call?_eq] at h
  obtain ⟨⟨argument, rest⟩, hargument, h⟩ := Option.bind_eq_some_iff.mp h
  obtain ⟨⟨options, left⟩, hoptions, h⟩ := Option.bind_eq_some_iff.mp h
  cases left with
  | nil => cases h
  | cons z left =>
      dsimp only at h
      split at h
      · next hclose =>
          cases h
          exact ⟨rest, z, left, hargument, hoptions, hclose, rfl, rfl⟩
      · cases h

/-- A node stands at the word `import`, behind no dot: a call in front of a parenthesis, a
declaration in front of anything else but a dot. -/
theorem importNodeAt?_cases {before ts : List Token} {t : Token} {n : ImportNode}
    (h : importNodeAt? before t ts = some n) :
    t.kind = .ident "import" ∧ before.head?.any (·.isPunct '.') = false ∧
      ((∃ paren rest c, ts = paren :: rest ∧ paren.kind = .punct '(' ∧
          call? t.span.start before rest = some c ∧ n = .call c) ∨
        ∃ d, ts.head?.any (fun u => u.isPunct '(' || u.isPunct '.') = false ∧
          declaration? t.span.start ts = some d ∧ n = .declaration d) := by
  unfold importNodeAt? at h
  split at h
  · next himport =>
      rw [Bool.and_eq_true, Bool.not_eq_true'] at himport
      refine ⟨beq_iff_eq.mp himport.1, himport.2, ?_⟩
      cases ts with
      | nil => cases h
      | cons next rest =>
          dsimp only at h
          split at h
          · next hparen =>
              obtain ⟨c, hc, rfl⟩ := Option.map_eq_some_iff.mp h
              exact .inl ⟨next, rest, c, rfl, kind_of_isPunct hparen, hc, rfl⟩
          · next hparen =>
              split at h
              · cases h
              · next hdot =>
                  obtain ⟨d, hd, rfl⟩ := Option.map_eq_some_iff.mp h
                  exact .inr ⟨d, by simp [hparen, hdot], hd, rfl⟩
  · cases h

theorem importNodeAt?_redirect {before ts : List Token} {t : Token} (h : Placed rs (t :: ts)) :
    importNodeAt? (before.map (Token.redirect rs)) (t.redirect rs) (ts.map (Token.redirect rs)) =
      (importNodeAt? before t ts).map (ImportNode.redirect rs) := by
  have hbefore : (before.map (Token.redirect rs)).head?.any (·.isPunct '.') =
      before.head?.any (·.isPunct '.') := by
    cases before with
    | nil => rfl
    | cons u before => exact Token.isPunct_redirect u '.'
  unfold importNodeAt?
  rw [Token.isIdent_redirect, hbefore]
  split
  · next himport =>
      have hword : t.kind = .ident "import" := by
        rw [Bool.and_eq_true] at himport
        exact beq_iff_eq.mp himport.1
      cases ts with
      | nil => rfl
      | cons next rest =>
          have hdeclaration := declaration?_redirect t.span.start hword h
          rw [List.map_cons] at hdeclaration ⊢
          simp only [Token.isPunct_redirect]
          split
          · next hparen => exact call?_redirect t.span.start before hparen h.tail
          · split
            · rfl
            · exact hdeclaration
  · rfl

theorem importNodesFrom_redirect (before : List Token) {ts : List Token} (h : Placed rs ts) :
    importNodesFrom (before.map (Token.redirect rs)) (ts.map (Token.redirect rs)) =
      (importNodesFrom before ts).map (ImportNode.redirect rs) := by
  induction ts generalizing before with
  | nil => rfl
  | cons t ts ih =>
      have ih := ih (t :: before) h.tail
      rw [List.map_cons] at ih ⊢
      rw [importNodesFrom, importNodesFrom, ih, importNodeAt?_redirect h, List.map_append]
      cases importNodeAt? before t ts <;> rfl

end StyleBundler.Script
