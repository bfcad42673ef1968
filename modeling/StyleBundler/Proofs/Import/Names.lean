import StyleBundler.Proofs.Script.Placing

/-!
The names that the entries of a plan bind are names of the unit (`isName_of_mem_scan`).
-/

namespace StyleBundler

open Script

namespace Script

/-- The name of one of the tokens. -/
def IsNameOf (ts : List Token) (name : String) : Prop := ∃ t ∈ ts, t.kind = .ident name

theorem IsNameOf.mono {ts us : List Token} {name : String} (h : IsNameOf ts name) (hsub : ts ⊆ us) :
    IsNameOf us name := by
  obtain ⟨t, ht, hkind⟩ := h
  exact ⟨t, hsub ht, hkind⟩

theorem isNameOf_alias? {ts : List Token} {name : String} (h : alias? ts = some name) :
    IsNameOf ts name := by
  match ts with
  | [] | [_] => cases h
  | keyword :: t :: ts =>
      simp only [alias?] at h
      split at h
      · split at h
        · next hkind =>
            cases h
            exact ⟨t, by simp, hkind⟩
        · cases h
      · cases h

theorem isNameOf_leadingDefault? {ts : List Token} {name : String}
    (h : leadingDefault? ts = some name) : IsNameOf ts name := by
  cases ts with
  | nil => cases h
  | cons t ts =>
      simp only [leadingDefault?] at h
      split at h
      · next hkind =>
          split at h
          · cases h
            exact ⟨t, List.mem_cons_self, hkind⟩
          · cases h
      · cases h

/-- A clause binds names of its tokens. -/
def ClauseBindings.NamedIn (ts : List Token) (b : ClauseBindings) : Prop :=
  (∀ name, b.defaultName = some name → IsNameOf ts name) ∧
    ∀ name, b.namespaceName = some name → IsNameOf ts name

theorem namedIn_clause? {all ts rest : List Token} {first : Bool} {depth : Nat}
    {found bound : ClauseBindings} {value : String} {span : Span} (hsub : ts ⊆ all)
    (hfound : found.NamedIn all)
    (h : clause? first depth found ts = some (bound, value, span, rest)) : bound.NamedIn all := by
  have halias : ∀ {t : Token} {ts : List Token} {name : String}, t :: ts ⊆ all →
      alias? ts = some name → IsNameOf all name := fun hsub h =>
    (isNameOf_alias? h).mono (List.Subset.trans (List.subset_cons_self _ _) hsub)
  fun_induction clause? first depth found ts with
  | case1 | case3 | case5 => cases h
  | case6 first depth found t ts c hc ho hd hend hstar ih =>
      refine ih (List.Subset.trans (List.subset_cons_self t ts) hsub) ⟨hfound.1, ?_⟩ h
      intro name hname
      rcases Option.or_eq_some_iff.mp hname with hname | ⟨-, hname⟩
      · exact halias hsub hname
      · exact hfound.2 name hname
  | case8 first depth found t ts name hname hdefault ih =>
      refine ih (List.Subset.trans (List.subset_cons_self t ts) hsub) ⟨?_, hfound.2⟩ h
      intro name hname
      rcases Option.or_eq_some_iff.mp hname with hname | ⟨-, hname⟩
      · exact hfound.1 name hname
      · exact halias hsub hname
  | case9 =>
      cases h
      exact hfound
  | _ =>
      rename_i ih
      exact ih (List.Subset.trans (List.subset_cons_self _ _) hsub) hfound h

theorem namedIn_readClause? {ts rest : List Token} {bound : ClauseBindings} {value : String}
    {span : Span} (h : readClause? ts = some (bound, value, span, rest)) : bound.NamedIn ts := by
  unfold readClause? at h
  split at h
  · cases h
    exact ⟨nofun, nofun⟩
  · have hfound : (⟨leadingDefault? ts, none⟩ : ClauseBindings).NamedIn ts :=
      ⟨fun _ => isNameOf_leadingDefault?, nofun⟩
    exact namedIn_clause? (List.Subset.refl ts) hfound h

theorem isNameOf_boundName? {before : List Token} {name : String}
    (h : boundName? before = some name) : IsNameOf before name := by
  match before with
  | [] | [_] | [_, _] => cases h
  | sign :: t :: keyword :: before =>
      simp only [boundName?] at h
      split at h
      · split at h
        · next hkind =>
            cases h
            exact ⟨t, by simp, hkind⟩
        · cases h
      · cases h

theorem isNameOf_callBinding? {call : Span} {before : List Token} {b : CallBinding}
    (h : callBinding? call before = some b) : IsNameOf before b.name := by
  rw [callBinding?_eq] at h
  cases before with
  | nil => cases h
  | cons t before =>
      dsimp only at h
      split at h
      · obtain ⟨name, hname, rfl⟩ := Option.map_eq_some_iff.mp h
        exact (isNameOf_boundName? hname).mono (List.subset_cons_self t before)
      · obtain ⟨name, hname, rfl⟩ := Option.map_eq_some_iff.mp h
        exact isNameOf_boundName? hname

/-- The name of a token starts with a character of names other than a digit, and has no others. -/
theorem IsNameOf.isName {code name : String} (h : IsNameOf (tokenize code) name) :
    IsName name.toList := by
  obtain ⟨t, ht, hkind⟩ := h
  obtain ⟨front, back, hsplit⟩ := List.append_of_mem ht
  obtain ⟨a, l, b, hls, -, hl, -⟩ := exists_lexeme_of_place hsplit
  have hmem : l ∈ lexemes none code.toList := by simp [hls]
  exact (text_of_mem_lexemes hmem (hl.trans (congrArg some hkind))).2

end Script

/-- The names that an entry binds. -/
def PlannedBinding.names : PlannedBinding → List String
  | .static localName namespaceName => localName.toList ++ namespaceName.toList
  | .dynamic variableName _ => variableName.toList

namespace Plan

/-- All that the entries of a plan bind are names. -/
def IsNamed (p : Plan) : Prop := ∀ e ∈ p, ∀ name ∈ e.binding.names, IsName name.toList

theorem isName_of_mem_scan {store : AssetStore} {code : String} {e : PlannedImport}
    (h : e ∈ scan store code) : ∀ name ∈ e.binding.names, IsName name.toList := by
  obtain ⟨n, hn, he⟩ := List.mem_filterMap.mp h
  obtain ⟨front, t, back, htokens, hread⟩ := exists_split_of_mem_importNodesFrom hn
  rw [List.append_nil] at hread
  rw [(exists_node_of_importOf? he).2]
  intro name hname
  suffices hof : IsNameOf (tokenize code) name from hof.isName
  cases n with
  | declaration d =>
      obtain ⟨-, -, ⟨paren, rest, c, -, -, -, hnode⟩ | ⟨d', -, hd, hnode⟩⟩ :=
        importNodeAt?_cases hread
      · cases hnode
      cases hnode
      obtain ⟨bound, rest, left, hclause, -, hdefault, hwhole, -⟩ :=
        exists_readClause?_of_declaration? hd
      obtain ⟨hdefaultName, hwholeName⟩ := namedIn_readClause? hclause
      rw [← hdefault] at hdefaultName
      rw [← hwhole] at hwholeName
      have hsub : back ⊆ tokenize code := by
        rw [htokens]
        exact fun u hu => List.mem_append_right _ (List.mem_cons_of_mem _ hu)
      rcases List.mem_append.mp hname with hname | hname
      · exact (hdefaultName name (Option.mem_toList.mp hname)).mono hsub
      · exact (hwholeName name (Option.mem_toList.mp hname)).mono hsub
  | call c =>
      have hbinding := binding_of_importNodeAt? hread
      have hsub : front.reverse ⊆ tokenize code := by
        rw [htokens]
        exact fun u hu => List.mem_append_left _ (List.mem_reverse.mp hu)
      rw [entryOf, callBinding] at hname
      split at hname
      · next b hb =>
          simp only [PlannedBinding.names, Option.toList_some, List.mem_singleton] at hname
          rw [hname]
          exact (isNameOf_callBinding? (hbinding.symm.trans hb)).mono hsub
      · cases hname

theorem isNamed_scan (store : AssetStore) (code : String) : (scan store code).IsNamed :=
  fun _ => isName_of_mem_scan

end Plan

end StyleBundler
