import StyleBundler.Script.Token

/-!
Operands of an import: the specifier, the options of a call, the attributes of a
declaration. Only literals, names and object literals keep their structure; any
other operand is a range of the text. A reader returns the tokens it left, and
always takes at least one.
-/

namespace StyleBundler.Script

inductive Expr where
  | str (span : Span) (value : String)
  | template (span : Span) (chunks : List String)
  /-- Several tokens with a plus outside of brackets. -/
  | sum (span : Span)
  | ident (span : Span) (name : String)
  | object (span : Span) (properties : List (String × Expr))
  | other (span : Span)
deriving Repr, Inhabited

structure ObjectLiteral where
  span : Span
  properties : List (String × Expr)
deriving Repr, Inhabited

namespace Expr

def span : Expr → Span
  | .str s _ | .template s _ | .sum s | .ident s _ | .object s _ | .other s => s

/-- The text of a plain string literal. -/
def asString? : Expr → Option String
  | .str _ value => some value
  | _ => none

def asObject? : Expr → Option ObjectLiteral
  | .object s properties => some ⟨s, properties⟩
  | _ => none

end Expr

/-- The value of the first property of that name. -/
def ObjectLiteral.get? (o : ObjectLiteral) (key : String) : Option Expr :=
  (o.properties.find? (·.1 == key)).map (·.2)

/-- The tokens of an operand, whether a plus stands outside of its brackets, and the
tokens behind it. -/
structure Operand where
  tokens : List Token
  hasPlus : Bool
  rest : List Token

def Operand.lead (t : Token) (plus : Bool) (o : Operand) : Operand :=
  ⟨t :: o.tokens, plus || o.hasPlus, o.rest⟩

/-- Takes tokens up to a comma, a semicolon or a closing bracket that no bracket of
the operand encloses; kinds of brackets are not matched against each other. -/
def Operand.read (depth : Nat) : List Token → Operand
  | [] => ⟨[], false, []⟩
  | t :: ts =>
      match t.kind with
      | .punct c =>
          if c = '(' || c = '[' || c = '{' then (Operand.read (depth + 1) ts).lead t false
          else if c = ')' || c = ']' || c = '}' then
            match depth with
            | 0 => ⟨[], false, t :: ts⟩
            | depth + 1 => (Operand.read depth ts).lead t false
          else if (c = ',' || c = ';') && depth = 0 then ⟨[], false, t :: ts⟩
          else (Operand.read depth ts).lead t (c = '+' && depth = 0)
      | _ => (Operand.read depth ts).lead t false

/-- Nothing is lost. -/
theorem Operand.tokens_append_rest (depth : Nat) (ts : List Token) :
    (Operand.read depth ts).tokens ++ (Operand.read depth ts).rest = ts := by
  fun_induction Operand.read depth ts <;> simp_all [Operand.lead]

/-- The expression that an operand's tokens make up. -/
def Operand.toExpr? (o : Operand) : Option Expr :=
  match o.tokens with
  | [] => none
  | [t] =>
      some <| match t.kind with
        | .str value => .str t.span value
        | .template chunks => .template t.span chunks
        | .ident name => .ident t.span name
        | _ => .other t.span
  | t :: u :: ts =>
      let range : Span := ⟨t.span.start, ((u :: ts).getLast (by simp)).span.stop⟩
      some (if o.hasPlus then .sum range else .other range)

/-- An operand ends where the text ends or a sign cannot continue it. -/
def endsOperand : List Token → Bool
  | [] => true
  | t :: _ =>
      t.isPunct ',' || t.isPunct ')' || t.isPunct ']' || t.isPunct '}' || t.isPunct ';'

/-- The name before the colon of a property. -/
def propertyKey? (t : Token) : Option String :=
  match t.kind with
  | .ident name | .str name => some name
  | _ => none

/-- Skips one comma; nothing when no token is left. -/
def skipComma? : List Token → Option (List Token)
  | [] => none
  | t :: ts => some (if t.isPunct ',' then ts else t :: ts)

theorem length_skipComma?_le {ts rest : List Token} (h : skipComma? ts = some rest) :
    rest.length ≤ ts.length := by
  cases ts with
  | nil => simp [skipComma?] at h
  | cons t ts =>
      simp only [skipComma?, Option.some.injEq] at h
      subst h
      split <;> simp

/-- An expression that is not taken as an object literal. -/
def plainExpr? (ts : List Token) : Option { r : Expr × List Token // r.2.length < ts.length } :=
  let o := Operand.read 0 ts
  match h : o.tokens with
  | [] => none
  | t :: taken =>
      o.toExpr?.map fun e => ⟨(e, o.rest), by
        have := congrArg List.length (Operand.tokens_append_rest 0 ts)
        simp only [List.length_append] at this
        have hlen : o.tokens.length = taken.length + 1 := by rw [h]; rfl
        have : o.rest.length + (taken.length + 1) = ts.length := by
          rw [← hlen, Nat.add_comm]; exact this
        show o.rest.length < ts.length
        omega⟩

/-- Where the operand of an object literal's entry starts: behind a plain key and its
colon, and else at the entry's first token, which has no key then. -/
def entryOperand (t : Token) (ts : List Token) : Option String × List Token :=
  match propertyKey? t, ts with
  | some key, colon :: values =>
      if colon.isPunct ':' then (some key, values) else (none, t :: ts)
  | _, _ => (none, t :: ts)

theorem length_entryOperand_le (t : Token) (ts : List Token) :
    (entryOperand t ts).2.length ≤ ts.length + 1 := by
  unfold entryOperand
  split
  · split
    · simp only [List.length_cons]
      omega
    · simp
  · simp

theorem object_decreases (t : Token) (ts : List Token) :
    2 * ts.length + 1 < 2 * (t :: ts).length := by
  rw [List.length_cons]
  omega

theorem operand_decreases (t : Token) (ts : List Token) :
    2 * (entryOperand t ts).2.length < 2 * (t :: ts).length + 1 := by
  have := length_entryOperand_le t ts
  rw [List.length_cons]
  omega

theorem entries_decrease {t : Token} {ts rest : List Token} (h : rest.length < ts.length + 1) :
    2 * rest.length + 1 < 2 * (t :: ts).length + 1 := by
  rw [List.length_cons]
  omega

mutual

/-- Reads one operand. A brace opens an object literal when the literal is complete
and ends the operand; otherwise the tokens are taken as they come. -/
def expr? (ts : List Token) : Option { r : Expr × List Token // r.2.length < ts.length } :=
  match ts with
  | [] => none
  | t :: ts =>
      if t.isPunct '{' then
        match properties? ts with
        | some ⟨(found, stop, rest), h⟩ =>
            if endsOperand rest then
              some ⟨(.object ⟨t.span.start, stop⟩ found, rest), Nat.lt_succ_of_lt h⟩
            else plainExpr? (t :: ts)
        | none => plainExpr? (t :: ts)
      else plainExpr? (t :: ts)
termination_by 2 * ts.length
decreasing_by exact object_decreases t ts

/-- Reads the entries of an object literal after its opening brace, giving those with
a plain key and the end of the closing brace. -/
def properties? (ts : List Token) :
    Option { r : List (String × Expr) × Nat × List Token // r.2.2.length < ts.length } :=
  match ts with
  | [] => none
  | t :: ts =>
      if t.isPunct '}' then some ⟨([], t.span.stop, ts), Nat.lt_succ_self _⟩
      else
        match expr? (entryOperand t ts).2 with
        | none => none
        | some ⟨(value, rest), h⟩ =>
            match hrest : skipComma? rest with
            | none => none
            | some rest' =>
                have hlen : rest'.length < ts.length + 1 := by
                  have hskip := length_skipComma?_le hrest
                  have hstart := length_entryOperand_le t ts
                  simp only at h
                  omega
                (properties? rest').map fun ⟨(found, stop, rest''), h'⟩ =>
                  ⟨(((entryOperand t ts).1.map (·, value)).toList ++ found, stop, rest''),
                    Nat.lt_trans h' hlen⟩
termination_by 2 * ts.length + 1
decreasing_by
  · exact operand_decreases t ts
  · exact entries_decrease hlen

end

end StyleBundler.Script
