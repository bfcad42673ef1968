import StyleBundler.Proofs.Import.Specifier

/-!
Where import nodes stand in the text. They come one behind the other (`pairwise_importNodes`), and
a call takes up the text from the start of its first token to the end of its last one
(`exists_slice_call`).
-/

namespace StyleBundler.Script

open Text

/-- The text of a token, and what stands around it. -/
theorem exists_split_of_mem_place {pos : Nat} {ls : List Lexeme} {t : Token}
    (h : t ∈ place pos ls) :
    ∃ a text b, ls.flatMap Lexeme.text = a ++ (text ++ b) ∧ t.span.start = pos + byteLength a ∧
      t.span.stop = t.span.start + byteLength text := by
  induction ls generalizing pos with
  | nil => cases h
  | cons l ls ih =>
      have hlater : t ∈ place (pos + byteLength l.text) ls →
          ∃ a text b, (l :: ls).flatMap Lexeme.text = a ++ (text ++ b) ∧
            t.span.start = pos + byteLength a ∧
            t.span.stop = t.span.start + byteLength text := by
        intro h
        obtain ⟨a, text, b, htext, hstart, hstop⟩ := ih h
        refine ⟨l.text ++ a, text, b, ?_, ?_, hstop⟩
        · rw [List.flatMap_cons, htext, List.append_assoc]
        · rw [hstart, byteLength_append, Nat.add_assoc]
      simp only [place] at h
      split at h
      · rcases List.mem_cons.mp h with rfl | h
        · exact ⟨[], l.text, ls.flatMap Lexeme.text, rfl, rfl, rfl⟩
        · exact hlater h
      · exact hlater h

/-- Between the start of a token and the end of a later one lies a part of the text. -/
theorem exists_slice_between {code : String} {a b : Token} (ha : a ∈ tokenize code)
    (hb : b ∈ tokenize code) (hle : a.span.start ≤ b.span.start) :
    ∃ part, slice? code.toList ⟨a.span.start, b.span.stop⟩ = some part := by
  rw [← Option.isSome_iff_exists, isSome_slice?_iff]
  obtain ⟨u, text, v, hsplit, hstart, -⟩ := exists_split_of_mem_place ha
  obtain ⟨u', text', v', hsplit', hstart', hstop'⟩ := exists_split_of_mem_place hb
  rw [flatMap_text_lexemes] at hsplit hsplit'
  rw [Nat.zero_add] at hstart hstart'
  refine ⟨?_, ⟨u, _, hsplit, hstart.symm⟩, ⟨u' ++ text', v', ?_, ?_⟩⟩
  · rw [hstop']
    exact Nat.le_add_right_of_le hle
  · rw [hsplit', List.append_assoc]
  · rw [byteLength_append, hstop', hstart']

theorem readOptions?_suffix {ts rest : List Token} {options : Option ObjectLiteral}
    (h : readOptions? ts = some (options, rest)) : rest <:+ ts := by
  cases ts with
  | nil => cases h
  | cons t ts =>
      rw [readOptions?] at h
      split at h
      · refine List.IsSuffix.trans ?_ (List.suffix_cons t ts)
        cases ts with
        | nil => cases h
        | cons u ts =>
            rw [callOptions?_cons] at h
            split at h
            · cases h
              exact List.suffix_rfl
            · obtain ⟨⟨value, left⟩, hvalue, h⟩ := Option.bind_eq_some_iff.mp h
              obtain ⟨left', hskip, hparts⟩ := Option.map_eq_some_iff.mp h
              cases hparts
              exact (skipComma?_suffix hskip).trans
                ((read_suffix _).1 _ _ _ (Nat.le_refl _) hvalue)
      · cases h
        exact List.suffix_rfl

/-- A call goes up to a parenthesis. -/
theorem exists_stop_of_call? {start : Nat} {before ts : List Token} {c : ImportCall}
    (h : call? start before ts = some c) :
    ∃ inner z rest, ts = inner ++ z :: rest ∧ c.span = ⟨start, z.span.stop⟩ ∧
      z.isPunct ')' = true := by
  obtain ⟨rest, z, left, hargument, hoptions, hclose, hspan, -⟩ := exists_readExpr?_of_call? h
  obtain ⟨inner, hts⟩ := (readOptions?_suffix hoptions).trans
    ((read_suffix _).1 _ _ _ (Nat.le_refl _) hargument)
  exact ⟨inner, z, left, hts.symm, hspan, hclose⟩

theorem start_of_importNodeAt? {before ts : List Token} {t : Token} {n : ImportNode}
    (h : importNodeAt? before t ts = some n) : n.span.start = t.span.start := by
  obtain ⟨-, -, ⟨paren, rest, c, rfl, -, hc, rfl⟩ | ⟨d, -, hd, rfl⟩⟩ := importNodeAt?_cases h
  · obtain ⟨inner, z, left, -, hspan, -⟩ := exists_stop_of_call? hc
    rw [ImportNode.span, hspan]
  · obtain ⟨bound, rest, left, -, -, -, -, hspan⟩ := exists_readClause?_of_declaration? hd
    rw [ImportNode.span, hspan]

/-- A node of a list of tokens is read at one of them, with those in front of it in view. -/
theorem exists_split_of_mem_importNodesFrom {before ts : List Token} {n : ImportNode}
    (h : n ∈ importNodesFrom before ts) :
    ∃ front t back, ts = front ++ t :: back ∧
      importNodeAt? (front.reverse ++ before) t back = some n := by
  induction ts generalizing before with
  | nil => cases h
  | cons t ts ih =>
      rw [importNodesFrom, List.mem_append, Option.mem_toList] at h
      rcases h with h | h
      · exact ⟨[], t, ts, rfl, h⟩
      · obtain ⟨front, t', back, rfl, hn⟩ := ih h
        exact ⟨t :: front, t', back, rfl, by simpa using hn⟩

theorem pairwise_importNodesFrom {before ts : List Token}
    (hts : ts.Pairwise fun a b => a.span.start < b.span.start) :
    (importNodesFrom before ts).Pairwise fun m n => m.span.start < n.span.start := by
  induction ts generalizing before with
  | nil => exact .nil
  | cons t ts ih =>
      obtain ⟨hlater, hts⟩ := List.pairwise_cons.mp hts
      rw [importNodesFrom]
      refine List.pairwise_append.mpr ⟨?_, ih hts, ?_⟩
      · cases importNodeAt? before t ts <;> simp
      · intro m hm n hn
        rw [Option.mem_toList] at hm
        obtain ⟨front, t', back, rfl, hread⟩ := exists_split_of_mem_importNodesFrom hn
        rw [start_of_importNodeAt? hm, start_of_importNodeAt? hread]
        exact hlater t' (by simp)

theorem pairwise_tokenize (code : String) :
    (tokenize code).Pairwise fun a b => a.span.start < b.span.start :=
  pairwise_place 0 (wellSpelled_lexemes none code.toList)

theorem pairwise_importNodes (code : String) :
    (importNodes code).Pairwise fun m n => m.span.start < n.span.start :=
  pairwise_importNodesFrom (pairwise_tokenize code)

/-- The span of a call is a part of the text. -/
theorem exists_slice_call {code : String} {c : ImportCall} (h : .call c ∈ importNodes code) :
    ∃ part, slice? code.toList c.span = some part := by
  obtain ⟨front, t, back, htokens, hn⟩ := exists_split_of_mem_importNodesFrom h
  obtain ⟨-, -, ⟨paren, rest, c', rfl, -, hc, hnode⟩ | ⟨d, -, -, hnode⟩⟩ :=
    importNodeAt?_cases hn
  · cases hnode
    obtain ⟨inner, z, left, rfl, hspan, -⟩ := exists_stop_of_call? hc
    have hts := pairwise_tokenize code
    rw [htokens] at hts
    have hlt : t.span.start < z.span.start :=
      (List.pairwise_cons.mp (List.pairwise_append.mp hts).2.1).1 z (by simp)
    rw [hspan]
    exact exists_slice_between (by simp [htokens]) (by simp [htokens]) (Nat.le_of_lt hlt)
  · cases hnode

end StyleBundler.Script
