import StyleBundler.Proofs.Pack.Seams

/-!
Tokens among which no asset is imported. What is left of a unit beside the entries of its plan
imports none, and still imports none when the entries have given way to their own lexemes
(`Stitched.quiet`).
-/

namespace StyleBundler

open Script Text

namespace Plan

variable {store : AssetStore}

theorem isSome_importOf? (store : AssetStore) (n : ImportNode) :
    (importOf? store n).isSome =
      (n.target.1 && n.target.2.any fun reference => (store.referenced? reference).isSome) := by
  rw [importOf?_eq, ImportNode.target]
  cases n.isCss with
  | false => rfl
  | true =>
      cases Import.specifierText? n.specifier with
      | none => rfl
      | some reference =>
          simp only [if_true, Option.bind_some, Bool.true_and, Option.any_some]
          cases (store.referenced? reference).isSome <;> rfl

theorem any_isPunct (t? : Option Token) (sign : Char) :
    t?.any (·.isPunct sign) = (t?.map Token.kind == some (.punct sign)) := by
  cases t? <;> rfl

/-- Only the kinds of tokens decide what is imported, and of those in front only whether the last
is a dot. -/
theorem plansAt_congr {before before' ts ts' : List Token} {t t' : Token}
    (hbefore : before'.head?.map Token.kind = some (.punct '.') ↔
      before.head?.map Token.kind = some (.punct '.'))
    (ht : t'.kind = t.kind) (hts : ts'.map Token.kind = ts.map Token.kind) :
    plansAt store before' t' ts' = plansAt store before t ts := by
  have hdot : before'.head?.any (·.isPunct '.') = before.head?.any (·.isPunct '.') := by
    rw [any_isPunct, any_isPunct, Bool.eq_iff_iff, beq_iff_eq, beq_iff_eq, hbefore]
  have htarget := target_importNodeAt?_congr hdot ht hts
  have hplans : ∀ before t ts, plansAt store before t ts =
      ((importNodeAt? before t ts).map ImportNode.target).any fun target =>
        target.1 && target.2.any fun reference => (store.referenced? reference).isSome := by
    intro before t ts
    rw [plansAt]
    cases importNodeAt? before t ts with
    | none => rfl
    | some n => exact isSome_importOf? store n
  rw [hplans, hplans, htarget]

theorem plansAt_of_not_import {before ts : List Token} {t : Token}
    (h : t.kind ≠ .ident "import") : plansAt store before t ts = false := by
  rw [plansAt, Option.any_eq_false]
  intro n hn
  exact absurd (importNodeAt?_cases hn).1 h

/-- A token beside all entries imports nothing. -/
theorem plansAt_of_not_covers {code : String} {front back : List Token} {t : Token}
    (htokens : tokenize code = front ++ t :: back)
    (h : (scan store code).covers t = false) : plansAt store front.reverse t back = false := by
  rw [plansAt, Option.any_eq_false]
  intro n hn
  rw [Option.isSome_eq_false_iff, Option.isNone_iff_eq_none, Option.eq_none_iff_forall_ne_some]
  intro e he
  obtain ⟨before, ts, behind, hts, ht, hreplaces⟩ := exists_replaces htokens hn he
  have hmem : e ∈ scan store code := by
    refine List.mem_filterMap.mpr ⟨n, ?_, he⟩
    rw [importNodes, htokens]
    exact mem_importNodesFrom (by rwa [List.append_nil])
  have hcovers : e.covers t = true := by
    have hbounds := hreplaces.takesUp.encloses hts t ht
    simp [PlannedImport.covers, hbounds]
  rw [covers, List.any_eq_false] at h
  exact h e hmem hcovers

/-- At none of the tokens `ts`, between `before`, the nearest first, and `behind`, an asset is
imported. -/
def Quiet (store : AssetStore) : List Token → List Token → List Token → Prop
  | _, [], _ => True
  | before, t :: ts, behind =>
      plansAt store before t (ts ++ behind) = false ∧ Quiet store (t :: before) ts behind

theorem Quiet.append {before a b behind : List Token} (ha : Quiet store before a (b ++ behind))
    (hb : Quiet store (a.reverse ++ before) b behind) : Quiet store before (a ++ b) behind := by
  induction a generalizing before with
  | nil => exact hb
  | cons t a ih =>
      have hbehind : a ++ b ++ behind = a ++ (b ++ behind) := List.append_assoc a b behind
      exact ⟨hbehind ▸ ha.1, ih ha.2 (by simpa using hb)⟩

theorem Quiet.of_forall {before ts behind : List Token}
    (h : ∀ front t back, ts = front ++ t :: back →
      plansAt store (front.reverse ++ before) t (back ++ behind) = false) :
    Quiet store before ts behind := by
  induction ts generalizing before with
  | nil => trivial
  | cons t ts ih =>
      refine ⟨h [] t ts rfl, ih fun front u back hts => ?_⟩
      rw [← h (t :: front) u back (by rw [hts]; rfl)]
      simp

theorem Quiet.filterMap_eq_nil {before ts : List Token} (h : Quiet store before ts []) :
    (importNodesFrom before ts).filterMap (importOf? store) = [] := by
  induction ts generalizing before with
  | nil => rfl
  | cons t ts ih =>
      rw [importNodesFrom, List.filterMap_append, ih h.2, List.append_nil,
        List.filterMap_eq_nil_iff]
      intro n hn
      have hplans := h.1
      rw [List.append_nil, plansAt, Option.any_eq_false] at hplans
      simpa using hplans n (Option.mem_toList.mp hn)

/-- Tokens are quiet behind others if tokens of their kinds are. -/
theorem Quiet.of_kinds (front ts : List Token) {before ts' behind : List Token}
    (hkinds : ts'.map Token.kind = ts.map Token.kind)
    (hdot : before.head?.map Token.kind = some (.punct '.') ↔
      front.getLast?.map Token.kind = some (.punct '.'))
    (h : ∀ a t b, ts = a ++ t :: b → plansAt store (front ++ a).reverse t (b ++ behind) = false) :
    Quiet store before ts' behind := by
  refine Quiet.of_forall ?_
  rintro a' t' b' rfl
  rw [List.map_append, List.map_cons] at hkinds
  obtain ⟨a, rest, rfl, ha, hrest⟩ := List.map_eq_append_iff.mp hkinds.symm
  obtain ⟨t, b, rfl, ht, hb⟩ := List.map_eq_cons_iff.mp hrest
  refine (plansAt_congr ?_ ht.symm ?_).trans (h a t b rfl)
  · have hlast : a'.getLast?.map Token.kind = a.getLast?.map Token.kind := by
      rw [← List.getLast?_map, ← List.getLast?_map, ha]
    rw [List.head?_append, List.head?_reverse, List.head?_reverse, List.getLast?_append,
      Option.map_or, Option.map_or, hlast]
    cases a.getLast? with
    | none => exact hdot
    | some u => rfl
  · rw [List.map_append, List.map_append, hb]

theorem lastKind_dot_iff {prior prior' : Option TokenKind}
    (h : prior' = some (.punct '.') ↔ prior = some (.punct '.')) (ls : List Lexeme) :
    lastKind prior' ls = some (.punct '.') ↔ lastKind prior ls = some (.punct '.') := by
  rw [lastKind_eq prior' 0, lastKind_eq prior 0]
  cases (place 0 ls).getLast? with
  | none => exact h
  | some t => rfl

theorem head?_reverse_place (before : List Token) (pos : Nat) (ls : List Lexeme) :
    ((place pos ls).reverse ++ before).head?.map Token.kind =
      lastKind (before.head?.map Token.kind) ls := by
  rw [List.head?_append, List.head?_reverse, lastKind_eq _ pos]
  cases (place pos ls).getLast? <;> rfl

theorem getLast?_place (ls : List Lexeme) :
    (place 0 ls).getLast?.map Token.kind = lastKind none ls := by
  rw [lastKind_eq none 0]
  cases (place 0 ls).getLast? <;> rfl

variable {code : String} {front kept taken ls new : List Lexeme} {e : PlannedImport}
  {swaps : List (PlannedImport × List Lexeme)} {before behind : List Token}

/-- Behind the last entry nothing is imported, wherever the tokens stand. -/
theorem Remaining.quiet_rest (h : (scan store code).Remaining code front ls [])
    (hdot : before.head?.map Token.kind = some (.punct '.') ↔
      lastKind none front = some (.punct '.')) (pos : Nat) :
    Quiet store before (place pos ls) [] := by
  have htokens : tokenize code = place 0 front ++ place (byteLength (spell front)) ls := by
    rw [tokenize, h.text, place_append, Nat.zero_add]
  refine Quiet.of_kinds (place 0 front) (place (byteLength (spell front)) ls) ?_ ?_ ?_
  · rw [map_kind_place, map_kind_place]
  · rwa [getLast?_place]
  · intro a t b hsplit
    rw [List.append_nil]
    refine plansAt_of_not_covers (by rw [htokens, hsplit, List.append_assoc]) ?_
    have ht : t ∈ place (byteLength (spell front)) ls := by simp [hsplit]
    obtain ⟨hstart, hlt, hstop⟩ := bounds_of_mem_place
      (fun l hl => h.wellSpelled l (List.mem_append_right _ hl)) ht
    exact covers_eq_false hstart hlt hstop fun e he => .inl ((h.reached e he).resolve_right (by simp))

/-- Up to the next entry nothing is imported, whatever comes in its place and behind it. -/
theorem Remaining.quiet_kept (hstanding : (scan store code).Standing store (tokenize code))
    (h : (scan store code).Remaining code front (kept ++ (taken ++ ls)) ((e, new) :: swaps))
    (htaken : Taken code e front kept taken)
    (hdot : before.head?.map Token.kind = some (.punct '.') ↔
      lastKind none front = some (.punct '.')) (pos : Nat) :
    Quiet store before (place pos kept) behind := by
  have htokens := htaken.tokenize_eq h.text
  rw [place_append, Nat.zero_add, List.append_assoc] at htokens
  refine Quiet.of_kinds (place 0 front) (place (byteLength (spell front)) kept) ?_ ?_ ?_
  · rw [map_kind_place, map_kind_place]
  · rwa [getLast?_place]
  · intro a t b hsplit
    by_cases himport : t.isIdent "import" = true
    · rw [hsplit] at htokens
      have hsplit' : tokenize code = (place 0 front ++ a) ++
          t :: (b ++ (place e.span.start taken ++ place e.span.stop ls)) := by
        rw [htokens]
        simp
      have ht : t ∈ place (byteLength (spell front)) kept := by simp [hsplit]
      obtain ⟨hstart, hlt, hstop⟩ := bounds_of_mem_place
        (fun l hl => h.wellSpelled l (by simp [hl])) ht
      rw [htaken.start] at hstop
      have hcovers : (scan store code).covers t = false := by
        refine covers_eq_false hstart hlt hstop fun d hd => ?_
        have hle := htaken.stop
        rcases h.cases hd with h | rfl | h
        · exact .inl h
        · exact .inr (Nat.le_refl _)
        · exact .inr (by omega)
      have hdecided := hstanding _ t _ hsplit' himport hcovers e (h.swap _ List.mem_cons_self).mem
        hstop
      obtain ⟨hfront, htakes, hrest⟩ := htaken.start_of_mem h.text
      rw [(takeWhile_start_lt ?_ ?_).1] at hdecided
      · rw [hdecided behind, ← hdecided (place e.span.start taken ++ place e.span.stop ls)]
        exact plansAt_of_not_covers hsplit' hcovers
      · intro u hu
        refine hfront u ?_
        rw [place_append, Nat.zero_add, hsplit]
        simp [hu]
      · intro u hu
        rcases List.mem_append.mp (List.mem_of_mem_head? hu) with hu | hu
        · exact (htakes u hu).1
        · have := hrest u hu
          have hle := htaken.stop
          omega
    · exact plansAt_of_not_import fun hkind => himport (beq_iff_eq.mpr hkind)

theorem quiet_settled (calm : ∀ l ∈ new, l.kind ≠ some (.ident "import")) (pos : Nat) :
    Quiet store before (place pos new) behind := by
  refine Quiet.of_forall fun a t b hsplit => plansAt_of_not_import fun hkind => ?_
  have hmem : TokenKind.ident "import" ∈ (place pos new).map Token.kind :=
    List.mem_map.mpr ⟨t, by simp [hsplit], hkind⟩
  rw [map_kind_place] at hmem
  obtain ⟨l, hl, hkind⟩ := List.mem_filterMap.mp hmem
  exact calm l hl hkind

end Plan

open Plan

/-- When all entries have given way, nothing is imported. -/
theorem Stitched.quiet {store : AssetStore} {code : String}
    (hstanding : (scan store code).Standing store (tokenize code)) {prior : Option TokenKind}
    {front ls ls' : List Lexeme} {swaps : List (PlannedImport × List Lexeme)}
    (h : Stitched code prior front ls swaps ls')
    (hrem : (scan store code).Remaining code front ls swaps) {before : List Token}
    (hdot : before.head?.map Token.kind = some (.punct '.') ↔
      lastKind none front = some (.punct '.')) (pos : Nat) :
    Quiet store before (place pos ls') [] := by
  induction h generalizing before pos with
  | rest => exact hrem.quiet_rest hdot pos
  | @swap prior front kept taken ls ls' new e swaps takes gives _ ih =>
      rw [place_append, place_append]
      refine (hrem.quiet_kept hstanding takes hdot pos).append (Quiet.append ?_ ?_)
      · cases gives with
        | removed => exact trivial
        | settled _ calm => exact quiet_settled calm.silent _
      · refine ih (hrem.next takes) ?_ _
        have hkept := lastKind_dot_iff hdot kept
        rw [← lastKind_append, ← head?_reverse_place before pos kept] at hkept
        rw [lastKind_append]
        cases gives with
        | removed he =>
            have hclosed : lastKind (lastKind none (front ++ kept)) taken ≠ some (.punct '.') := by
              rcases takes.lastKind_of_declaration he (lastKind none (front ++ kept)) with h | h
              · exact h ▸ nofun
              · exact h ▸ nofun
            exact iff_of_false (fun hhead => takes.undotted he (hkept.mp hhead)) hclosed
        | settled he calm =>
            rw [head?_reverse_place, calm.closed, takes.lastKind_of_call he]

end StyleBundler
