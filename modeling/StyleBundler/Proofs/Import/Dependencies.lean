import StyleBundler.Dependency
import StyleBundler.Proofs.Script.Moving
import StyleBundler.Proofs.Text.Spacing

/-!
What the dependencies of a module depend on. Its declarations are those of its tokens, but its
re-exports are those of its text, comments and white space included. So the dependencies of two
texts with the same tokens are the same exactly when the texts have the same re-exports of what no
declaration imports (`dependencies_congr`); how wide the white space is makes no difference to that.
-/

namespace StyleBundler.Dependency

open Script Text

/-- The specifiers of the declarations of a text. -/
def declared (source : String) : List String :=
  (importNodes source).filterMap declarationSource?

/-- The specifiers that are only re-exported, each once. -/
def onlyReexported (source : String) : List String :=
  ((reexports source).filter fun s => !(declared source).contains s).foldl insertNew []

theorem mem_foldl_insertNew {s : String} (found xs : List String) :
    s ∈ xs.foldl insertNew found ↔ s ∈ found ∨ s ∈ xs := by
  induction xs generalizing found with
  | nil => simp
  | cons x xs ih =>
      have hmem : s ∈ insertNew found x ↔ s ∈ found ∨ s = x := by
        unfold insertNew
        split
        · next h =>
            constructor
            · exact .inl
            · rintro (h' | rfl)
              · exact h'
              · exact List.contains_iff_mem.mp h
        · simp
      rw [List.foldl_cons, ih, hmem, List.mem_cons, or_assoc]

/-- What is there already stays in front, and is not added again. -/
theorem foldl_insertNew_append (front found xs : List String) :
    xs.foldl insertNew (front ++ found) =
      front ++ (xs.filter fun s => !front.contains s).foldl insertNew found := by
  induction xs generalizing found with
  | nil => rfl
  | cons x xs ih =>
      rw [List.foldl_cons, List.filter_cons]
      by_cases hx : x ∈ front
      · have hinsert : insertNew (front ++ found) x = front ++ found := by simp [insertNew, hx]
        rw [hinsert, ih]
        simp [hx]
      · have hinsert : insertNew (front ++ found) x = front ++ insertNew found x := by
          simp only [insertNew, List.contains_eq_mem, List.mem_append, hx, false_or]
          split <;> simp
        rw [hinsert, ih]
        simp [hx]

theorem mem_declared {source s : String} :
    s ∈ declared source ↔ ∃ d, .declaration d ∈ importNodes source ∧ d.source = s := by
  rw [declared, List.mem_filterMap]
  constructor
  · rintro ⟨n, hn, hs⟩
    cases n with
    | declaration d => exact ⟨d, hn, Option.some.inj hs⟩
    | call c => cases hs
  · rintro ⟨d, hd, rfl⟩
    exact ⟨_, hd, rfl⟩

theorem mem_dependencies {source s : String} :
    s ∈ dependencies source ↔
      (∃ d, .declaration d ∈ importNodes source ∧ d.source = s) ∨ s ∈ reexports source := by
  rw [← mem_declared, declared, dependencies, mem_foldl_insertNew, List.mem_append]
  simp

/-- Declarations come first. -/
theorem dependencies_eq (source : String) :
    dependencies source = (declared source).foldl insertNew [] ++ onlyReexported source := by
  have happend :=
    foldl_insertNew_append ((declared source).foldl insertNew []) [] (reexports source)
  rw [List.append_nil] at happend
  rw [dependencies, List.foldl_append]
  refine happend.trans ?_
  rw [onlyReexported]
  have hcontains : ∀ s, ((declared source).foldl insertNew []).contains s =
      (declared source).contains s := by
    intro s
    rw [Bool.eq_iff_iff, List.contains_iff_mem, List.contains_iff_mem, mem_foldl_insertNew]
    simp
  simp only [hcontains]

theorem source_declaration?_move {f : Nat → Nat} (start start' : Nat) (ts : List Token) :
    (declaration? start' (ts.map (Token.move f))).map ImportDeclaration.source =
      (declaration? start ts).map ImportDeclaration.source := by
  rw [declaration?_eq, declaration?_eq, readClause?_move]
  cases readClause? ts with
  | none => rfl
  | some r =>
      obtain ⟨bound, source, sourceSpan, rest⟩ := r
      simp only [Option.map_some, Option.bind_some, attributes?_move]
      cases attributes? rest <;> rfl

theorem source_importNodeAt?_move {f : Nat → Nat} {before before' : List Token}
    (hbefore : before'.head?.any (·.isPunct '.') = before.head?.any (·.isPunct '.'))
    (t : Token) (ts : List Token) :
    (importNodeAt? before' (t.move f) (ts.map (Token.move f))).bind declarationSource? =
      (importNodeAt? before t ts).bind declarationSource? := by
  have hcall : ∀ o : Option ImportCall, (o.map ImportNode.call).bind declarationSource? = none := by
    intro o
    cases o <;> rfl
  have hdeclared : ∀ o : Option ImportDeclaration,
      (o.map ImportNode.declaration).bind declarationSource? = o.map ImportDeclaration.source := by
    intro o
    cases o <;> rfl
  unfold importNodeAt?
  rw [Token.isIdent_move, hbefore]
  split
  · cases ts with
    | nil => rfl
    | cons next rest =>
        have hsource :=
          @source_declaration?_move f t.span.start (t.move f).span.start (next :: rest)
        rw [List.map_cons] at hsource ⊢
        simp only [Token.isPunct_move]
        split
        · rw [hcall, hcall]
        · split
          · rfl
          · rw [hdeclared, hdeclared, hsource]
  · rfl

theorem sources_importNodesFrom_move (f : Nat → Nat) (before ts : List Token) :
    (importNodesFrom (before.map (Token.move f)) (ts.map (Token.move f))).filterMap
        declarationSource? =
      (importNodesFrom before ts).filterMap declarationSource? := by
  induction ts generalizing before with
  | nil => rfl
  | cons t ts ih =>
      have hbefore : (before.map (Token.move f)).head?.any (·.isPunct '.') =
          before.head?.any (·.isPunct '.') := by
        cases before <;> rfl
      have htoList : ∀ o : Option ImportNode,
          o.toList.filterMap declarationSource? = (o.bind declarationSource?).toList := by
        intro o
        cases o with
        | none => rfl
        | some n => cases n <;> rfl
      rw [List.map_cons, importNodesFrom, importNodesFrom, List.filterMap_append,
        List.filterMap_append, htoList, htoList, source_importNodeAt?_move hbefore,
        ← ih (t :: before), List.map_cons]

/-- Tokens of the same kinds declare the same. -/
theorem sources_importNodesFrom_congr {ts us : List Token}
    (h : ts.map Token.kind = us.map Token.kind) :
    (importNodesFrom [] ts).filterMap declarationSource? =
      (importNodesFrom [] us).filterMap declarationSource? := by
  have hmoved : ∀ ts : List Token, ts.map (Token.move fun _ => 0) =
      (ts.map Token.kind).map fun kind => ⟨kind, ⟨0, 0⟩⟩ := by
    intro ts
    rw [List.map_map]
    rfl
  rw [← sources_importNodesFrom_move fun _ => 0, hmoved ts, h, ← hmoved]
  exact sources_importNodesFrom_move (fun _ => 0) [] us

/-- The declarations are those of the tokens, wherever these stand. -/
theorem declared_congr {s t : String}
    (h : (tokenize s).map Token.kind = (tokenize t).map Token.kind) : declared s = declared t :=
  sources_importNodesFrom_congr h

/-- A sign that no blank is. -/
theorem not_beq_of_isBlank {c d : Char} (h : isBlank c = true) (hd : isBlank d = false) :
    (c == d) = false := by
  rw [beq_eq_false_iff_ne]
  rintro rfl
  rw [h] at hd
  cases hd

/-- Either quote. -/
theorem isQuote_of_isBlank {c : Char} (h : isBlank c = true) : (c == '"' || c == '\'') = false := by
  rw [not_beq_of_isBlank h (by decide), not_beq_of_isBlank h (by decide)]
  rfl

theorem specifier?_squeeze (cs : List Char) :
    specifier? (squeeze cs) = (specifier? cs).map (Prod.map squeeze squeeze) := by
  cases cs with
  | nil => rfl
  | cons quote cs =>
      cases hquote : isBlank quote with
      | true =>
          obtain ⟨rest, hrest⟩ := exists_squeeze_cons_blank hquote cs
          simp [hrest, specifier?, isQuote_of_isBlank hquote]
      | false =>
          have hp : ∀ c, isBlank c = true →
              (!(c == '"' || c == '\'')) = !(' ' == '"' || ' ' == '\'') := by
            intro c hc
            rw [isQuote_of_isBlank hc]
            rfl
          rw [squeeze_cons hquote]
          simp only [specifier?]
          split
          · rw [takeWhile_squeeze hp, dropWhile_squeeze hp]
            cases htaken : cs.takeWhile fun c => !(c == '"' || c == '\'') with
            | nil => rfl
            | cons c taken =>
                obtain ⟨d, ds, hds⟩ := List.exists_cons_of_ne_nil
                  (squeeze_eq_nil.not.mpr (List.cons_ne_nil c taken))
                cases hleft : cs.dropWhile fun c => !(c == '"' || c == '\'') with
                | nil =>
                    rw [hds]
                    rfl
                | cons close rest =>
                    have hclose : isBlank close = false := by
                      by_contra hblank
                      have hhead := List.head?_dropWhile_not
                        (fun c => !(c == '"' || c == '\'')) cs
                      rw [hleft] at hhead
                      simp [isQuote_of_isBlank (eq_true_of_ne_false hblank)] at hhead
                    rw [squeeze_cons hclose, hds]
                    simp only [Option.map_some, Prod.map, hds]
          · rfl

theorem fromClause?_squeeze (cs : List Char) :
    fromClause? (squeeze cs) = (fromClause? cs).map (Prod.map squeeze squeeze) := by
  have hfrom : ∀ cs, after? "from".toList (squeeze cs) = (after? "from".toList cs).map squeeze :=
    after?_squeeze (by decide)
  simp only [fromClause?, Option.bind_eq_bind, skipBlanks?_squeeze, Option.bind_map,
    Function.comp_def, hfrom, specifier?_squeeze, Option.map_bind]

/-- The text behind a word. -/
def afterWord? : List Char → Option (List Char)
  | [] => none
  | c :: cs => if isWord c then some (cs.dropWhile isWord) else none

theorem aliasClause?_eq (cs : List Char) :
    aliasClause? cs = (skipBlanks? cs).bind fun cs => (after? "as".toList cs).bind fun cs =>
      (skipBlanks? cs).bind afterWord? := by
  refine Option.bind_congr fun _ _ => Option.bind_congr fun _ _ => Option.bind_congr fun cs _ => ?_
  cases cs <;> rfl

theorem afterWord?_squeeze (cs : List Char) :
    afterWord? (squeeze cs) = (afterWord? cs).map squeeze := by
  have hp : ∀ c, isBlank c = true → isWord c = isWord ' ' := by
    intro c hc
    rw [isWord_of_isBlank hc]
    rfl
  cases cs with
  | nil => rfl
  | cons c cs =>
      cases hc : isBlank c with
      | true =>
          obtain ⟨rest, hrest⟩ := exists_squeeze_cons_blank hc cs
          rw [hrest, afterWord?, afterWord?, isWord_of_isBlank hc]
          rfl
      | false =>
          rw [squeeze_cons hc, afterWord?, afterWord?, dropWhile_squeeze hp]
          split <;> rfl

theorem aliasClause?_squeeze (cs : List Char) :
    aliasClause? (squeeze cs) = (aliasClause? cs).map squeeze := by
  have has : ∀ cs, after? "as".toList (squeeze cs) = (after? "as".toList cs).map squeeze :=
    after?_squeeze (by decide)
  simp only [aliasClause?_eq, skipBlanks?_squeeze, Option.bind_map, Function.comp_def, has,
    Option.map_bind, afterWord?_squeeze]

theorem exportedNames?_cons_other {c : Char} (hbrace : c ≠ '\x7b') (hstar : c ≠ '*')
    (cs : List Char) : exportedNames? (c :: cs) = none := by
  unfold exportedNames?
  split
  · next h => exact absurd (List.cons.inj h).1 hbrace
  · next h => exact absurd (List.cons.inj h).1 hstar
  · rfl

theorem exportedNames?_squeeze (cs : List Char) :
    exportedNames? (squeeze cs) = (exportedNames? cs).map squeeze := by
  cases cs with
  | nil => rfl
  | cons c cs =>
      by_cases hbrace : c = '\x7b'
      · subst hbrace
        have hp : ∀ c, isBlank c = true → (c != '\x7d') = (' ' != '\x7d') := by
          intro c hc
          rw [bne, not_beq_of_isBlank hc (by decide)]
          rfl
        rw [squeeze_cons (by decide)]
        simp only [exportedNames?, dropWhile_squeeze hp]
        cases hrest : cs.dropWhile (· != '\x7d') with
        | nil => rfl
        | cons close rest =>
            have hhead := List.head?_dropWhile_not (· != '\x7d') cs
            rw [hrest] at hhead
            obtain rfl : close = '\x7d' := by simpa using hhead
            rw [squeeze_cons (by decide)]
            rfl
      by_cases hstar : c = '*'
      · subst hstar
        rw [squeeze_cons (by decide)]
        simp only [exportedNames?, aliasClause?_squeeze]
        cases aliasClause? cs <;> rfl
      rw [exportedNames?_cons_other hbrace hstar]
      cases hc : isBlank c with
      | true =>
          obtain ⟨rest, hrest⟩ := exists_squeeze_cons_blank hc cs
          rw [hrest]
          rfl
      | false =>
          rw [squeeze_cons hc, exportedNames?_cons_other hbrace hstar]
          rfl

theorem reexport?_squeeze (cs : List Char) :
    reexport? (squeeze cs) = (reexport? cs).map (Prod.map squeeze squeeze) := by
  have hexport : ∀ cs,
      after? "export".toList (squeeze cs) = (after? "export".toList cs).map squeeze :=
    after?_squeeze (by decide)
  simp only [reexport?, Option.bind_eq_bind, hexport, skipBlanks?_squeeze, Option.bind_map,
    Function.comp_def, exportedNames?_squeeze, fromClause?_squeeze, Option.map_bind]

theorem reexport?_cons_blank {c : Char} (h : isBlank c = true) (cs : List Char) :
    reexport? (c :: cs) = none := by
  have hne : ¬ 'e' = c := by
    rintro rfl
    exact absurd h (by decide)
  simp [reexport?, after?, hne]

section Suffix

variable {cs rest specifier : List Char}

theorem after?_suffix {start : List Char} (h : after? start cs = some rest) : rest <:+ cs := by
  rw [after?_eq_some_iff.mp h]
  exact List.suffix_append start rest

theorem skipBlanks?_suffix (h : skipBlanks? cs = some rest) : rest <:+ cs := by
  unfold skipBlanks? at h
  split at h
  · split at h
    · cases h
      exact List.dropWhile_suffix isBlank
    · cases h
  · cases h

theorem specifier?_suffix (h : specifier? cs = some (specifier, rest)) : rest <:+ cs := by
  unfold specifier? at h
  split at h
  · next quote cs =>
      dsimp only at h
      split at h
      · split at h
        · next hleft =>
            cases h
            have hsuffix := List.dropWhile_suffix (l := cs) fun c => !(c == '"' || c == '\'')
            rw [hleft] at hsuffix
            exact ((List.suffix_cons _ _).trans hsuffix).trans (List.suffix_cons quote cs)
        · cases h
      · cases h
  · cases h

theorem fromClause?_suffix (h : fromClause? cs = some (specifier, rest)) : rest <:+ cs := by
  simp only [fromClause?, Option.bind_eq_bind, Option.bind_eq_some_iff] at h
  obtain ⟨a, ha, b, hb, c, hc, hrest⟩ := h
  exact (specifier?_suffix hrest).trans ((skipBlanks?_suffix hc).trans
    ((after?_suffix hb).trans (skipBlanks?_suffix ha)))

theorem aliasClause?_suffix (h : aliasClause? cs = some rest) : rest <:+ cs := by
  simp only [aliasClause?, Option.bind_eq_bind, Option.bind_eq_some_iff] at h
  obtain ⟨a, ha, b, hb, c, hc, hrest⟩ := h
  refine List.IsSuffix.trans ?_ ((skipBlanks?_suffix hc).trans
    ((after?_suffix hb).trans (skipBlanks?_suffix ha)))
  split at hrest
  · split at hrest
    · cases hrest
      exact (List.dropWhile_suffix isWord).trans (List.suffix_cons _ _)
    · cases hrest
  · cases hrest

theorem exportedNames?_suffix (h : exportedNames? cs = some rest) : rest <:+ cs := by
  unfold exportedNames? at h
  split at h
  · next cs =>
      split at h
      · next hleft =>
          cases h
          have hsuffix := List.dropWhile_suffix (l := cs) (· != '\x7d')
          rw [hleft] at hsuffix
          exact ((List.suffix_cons _ _).trans hsuffix).trans (List.suffix_cons _ cs)
      · cases h
  · next cs =>
      cases h
      cases halias : aliasClause? cs with
      | none => exact List.suffix_cons _ cs
      | some behind => exact (aliasClause?_suffix halias).trans (List.suffix_cons _ cs)
  · cases h

/-- A re-export takes at least its keyword. -/
theorem reexport?_suffix (h : reexport? cs = some (specifier, rest)) :
    rest <:+ cs ∧ rest.length < cs.length := by
  simp only [reexport?, Option.bind_eq_bind, Option.bind_eq_some_iff] at h
  obtain ⟨a, ha, b, hb, c, hc, hrest⟩ := h
  have hsuffix : rest <:+ a := (fromClause?_suffix hrest).trans ((exportedNames?_suffix hc).trans
    (skipBlanks?_suffix hb))
  rw [after?_eq_some_iff] at ha
  subst ha
  refine ⟨hsuffix.trans (List.suffix_append _ a), ?_⟩
  have hlength := hsuffix.length_le
  rw [List.length_append]
  have hkeyword : 0 < "export".toList.length := by decide
  omega

end Suffix

theorem reexportsFrom_drop (skip : Nat) (cs : List Char) :
    reexportsFrom skip cs = reexportsFrom 0 (cs.drop skip) := by
  induction cs generalizing skip with
  | nil => cases skip <;> rfl
  | cons c cs ih =>
      cases skip with
      | zero => rfl
      | succ skip => rw [reexportsFrom, ih, List.drop_succ_cons]

/-- The search goes on behind a re-export, and at the next character where there is none. -/
theorem reexportsFrom_cons (c : Char) (cs : List Char) :
    reexportsFrom 0 (c :: cs) =
      match reexport? (c :: cs) with
      | some (specifier, rest) => specifier :: reexportsFrom 0 rest
      | none => reexportsFrom 0 cs := by
  rw [reexportsFrom]
  cases h : reexport? (c :: cs) with
  | none => rfl
  | some r =>
      obtain ⟨specifier, rest⟩ := r
      obtain ⟨⟨taken, htaken⟩, hlt⟩ := reexport?_suffix h
      dsimp only
      rw [reexportsFrom_drop]
      cases taken with
      | nil =>
          rw [← htaken, List.nil_append] at hlt
          exact absurd hlt (Nat.lt_irrefl _)
      | cons d taken =>
          obtain ⟨-, rfl⟩ := List.cons.inj htaken
          simp

theorem reexportsFrom_squeeze (cs : List Char) :
    reexportsFrom 0 (squeeze cs) = (reexportsFrom 0 cs).map squeeze := by
  induction hn : cs.length using Nat.strongRecOn generalizing cs with
  | _ n ih =>
      subst hn
      cases cs with
      | nil => rfl
      | cons c cs =>
          have hreexport := reexport?_squeeze (c :: cs)
          cases hc : isBlank c with
          | true =>
              have hspace : reexportsFrom 0 (' ' :: squeeze cs) = reexportsFrom 0 (squeeze cs) := by
                rw [reexportsFrom_cons, reexport?_cons_blank (by decide)]
              rw [reexportsFrom_cons c cs, reexport?_cons_blank hc, ← ih cs.length (by simp) cs rfl,
                squeeze_cons_blank hc]
              split
              · rfl
              · exact hspace
          | false =>
              rw [squeeze_cons hc] at hreexport ⊢
              rw [reexportsFrom_cons, reexportsFrom_cons, hreexport]
              cases hfound : reexport? (c :: cs) with
              | none => exact ih cs.length (by simp) cs rfl
              | some r =>
                  obtain ⟨specifier, rest⟩ := r
                  have hlt := (reexport?_suffix hfound).2
                  simp only [Option.map_some, Prod.map, List.map_cons, ih rest.length hlt rest rfl]

/-- Texts that differ in how wide their white space is re-export the same, if no specifier of theirs
has white space inside. -/
theorem reexports_eq_of_squeeze {s t : String} (h : squeeze s.toList = squeeze t.toList)
    (hs : ∀ r ∈ reexports s, ∀ c ∈ r.toList, isBlank c = false) : reexports s = reexports t := by
  have hmap : (reexportsFrom 0 s.toList).map squeeze = (reexportsFrom 0 t.toList).map squeeze := by
    rw [← reexportsFrom_squeeze, h, reexportsFrom_squeeze]
  have hself : ∀ r ∈ reexportsFrom 0 s.toList, squeeze r = r := fun r hr =>
    squeeze_eq_self (by simpa using hs (String.ofList r) (List.mem_map_of_mem hr))
  rw [List.map_congr_left hself, List.map_id'] at hmap
  have hself' : ∀ r ∈ reexportsFrom 0 t.toList, squeeze r = r := by
    intro r hr
    refine squeeze_eq_self (not_isBlank_of_squeeze ?_)
    have hmem : squeeze r ∈ reexportsFrom 0 s.toList := hmap ▸ List.mem_map_of_mem hr
    simpa using hs (String.ofList (squeeze r)) (List.mem_map_of_mem hmem)
  rw [List.map_congr_left hself', List.map_id'] at hmap
  rw [reexports, reexports, hmap]

/-- The dependencies of two texts with the same tokens are the same exactly when the texts re-export
the same of what no declaration imports; the declarations are the same in any case. No difference
comes from how wide the white space is. -/
theorem dependencies_congr {s t : String}
    (h : (tokenize s).map Token.kind = (tokenize t).map Token.kind) :
    declared s = declared t ∧
      (dependencies s = dependencies t ↔ onlyReexported s = onlyReexported t) ∧
      (squeeze s.toList = squeeze t.toList →
        (∀ r ∈ reexports s, ∀ c ∈ r.toList, isBlank c = false) →
          dependencies s = dependencies t) := by
  have hdeclared := declared_congr h
  have hiff : dependencies s = dependencies t ↔ onlyReexported s = onlyReexported t := by
    rw [dependencies_eq, dependencies_eq, hdeclared, List.append_right_inj]
  refine ⟨hdeclared, hiff, fun hsqueeze hs => hiff.mpr ?_⟩
  rw [onlyReexported, onlyReexported, hdeclared, reexports_eq_of_squeeze hsqueeze hs]

theorem dependencies_congr_indented :
    dependencies "import a from './a.js';\nexport \x7b b \x7d from './b.js';\n" =
      dependencies "import a from './a.js';\n\n  export \x7b\n    b\n  \x7d\tfrom   './b.js';\n" ∧
    onlyReexported "import a from './a.js';\nexport \x7b b \x7d from './b.js';\n" = ["./b.js"] := by
  have hunbroken : (reexports "import a from './a.js';\nexport \x7b b \x7d from './b.js';\n").all
      (fun r => r.toList.all (!isBlank ·)) = true := by
    decide +kernel
  simp only [List.all_eq_true, Bool.not_eq_true'] at hunbroken
  exact ⟨(dependencies_congr (by decide +kernel)).2.2 (by decide +kernel) hunbroken,
    by decide +kernel⟩

/-- A re-export in a comment is a dependency, though the text has the tokens of the empty text; and
one without the white space that could be left out is none. -/
theorem dependencies_commented :
    ((tokenize "// export * from './a.js'\n").map Token.kind = (tokenize "").map Token.kind ∧
      dependencies "// export * from './a.js'\n" = ["./a.js"] ∧ dependencies "" = []) ∧
    (tokenize "export*from'./a.js'\n").map Token.kind =
        (tokenize "export * from './a.js'\n").map Token.kind ∧
      dependencies "export*from'./a.js'\n" = [] ∧
      dependencies "export * from './a.js'\n" = ["./a.js"] := by
  decide +kernel

end StyleBundler.Dependency
