import Mathlib.Data.List.TakeWhile
import StyleBundler.Proofs.Build.Cut
import StyleBundler.Proofs.Build.Publication
import StyleBundler.Proofs.Build.Scripts
import StyleBundler.Proofs.Build.Units
import StyleBundler.Proofs.Pack.Exports

/-!
What a module still refers to when it stands in a unit. Of the modules of the unit it declares none,
unless the parts around a removed declaration run together or an import that stays reaches for what
comes behind; so it still refers to those that its text re-exports, and to no other
(`dependencies_standaloneCode`).
-/

namespace StyleBundler

open Script Text Dependency Hook

namespace Dependency

/-- What the declaration at a token imports. -/
def declaredAt? (before : List Token) (t : Token) (ts : List Token) : Option String :=
  (importNodeAt? before t ts).bind declarationSource?

theorem declaredAt?_eq_some_iff {before ts : List Token} {t : Token} {s : String} :
    declaredAt? before t ts = some s ↔
      ∃ d, importNodeAt? before t ts = some (.declaration d) ∧ d.source = s := by
  rw [declaredAt?, Option.bind_eq_some_iff]
  constructor
  · rintro ⟨n, hn, hs⟩
    cases n with
    | declaration d => exact ⟨d, hn, Option.some.inj hs⟩
    | call c => cases hs
  · rintro ⟨d, hd, rfl⟩
    exact ⟨_, hd, rfl⟩

/-- Of the tokens in front only a dot matters. -/
theorem declaredAt?_congr {before before' : List Token}
    (h : before'.head?.any (·.isPunct '.') = before.head?.any (·.isPunct '.')) (t : Token)
    (ts : List Token) : declaredAt? before' t ts = declaredAt? before t ts := by
  have hmoved := source_importNodeAt?_move (f := id) h t ts
  have hid : (Token.move id : Token → Token) = id := rfl
  rwa [hid, List.map_id] at hmoved

end Dependency

namespace Build

/-- The statements that go away, as spans. -/
def removedSpans (m : ScriptModule) : List Span := (internalDeclarations m).map (·.span)

/-- No import that stays, in front of a statement that goes away, can come to import a module of the
unit by what follows. -/
def Standing (m : ScriptModule) : Prop :=
  ∀ front t back, tokenize m.code = front ++ t :: back → t.isIdent "import" = true →
    covered (removedSpans m) t = false → back.any (covered (removedSpans m)) = true →
      ∀ more, ∀ s ∈ declaredAt? front.reverse t
        (back.takeWhile (fun u => !covered (removedSpans m) u) ++ more), s ∉ m.internalImports

/-- A declaration ends with its specifier, a brace or a semicolon. -/
theorem last_of_declaration? {start : Nat} {word : Token} {ts : List Token} {name : String}
    {d : ImportDeclaration} (hword : word.kind = .ident name)
    (h : declaration? start ts = some d) :
    ∃ taken z rest, word :: ts = taken ++ z :: rest ∧ d.span.stop = z.span.stop ∧
      z.isPunct '.' = false := by
  obtain ⟨bound, rest, left, hclause, hattributes, -, -, hspan⟩ :=
    exists_readClause?_of_declaration? h
  obtain ⟨front, a, -, hts, -⟩ := readClause?_foothold hword hclause
  rw [hspan]
  -- The last token so far, to which a semicolon may be added.
  obtain ⟨taken, z, hz, hdot, hstop⟩ : ∃ taken z, word :: ts = taken ++ z :: left ∧
      z.isPunct '.' = false ∧
      ((d.attributes.map (·.entries.span)).getD d.sourceSpan).stop = z.span.stop := by
    rcases attributes?_closes hattributes with
      ⟨hnone, rfl⟩ | ⟨found, more, z, hsome, hmore, hclose, hz⟩
    · exact ⟨front ++ [a], ⟨.str d.source, d.sourceSpan⟩, by simp [hts], rfl, by simp [hnone]⟩
    · refine ⟨front ++ a :: ⟨.str d.source, d.sourceSpan⟩ :: more, z, by simp [hts, hmore], ?_,
        by simp [hsome, hz]⟩
      simp [Token.isPunct, kind_of_isPunct hclose]
  cases left with
  | nil => exact ⟨taken, z, [], hz, hstop, hdot⟩
  | cons t left =>
      by_cases hsemicolon : t.isPunct ';' = true
      · refine ⟨taken ++ [z], t, left, by simp [hz], by simp [declarationEnd, hsemicolon], ?_⟩
        simp [Token.isPunct, kind_of_isPunct hsemicolon]
      · exact ⟨taken, z, t :: left, hz, by simp [declarationEnd, hsemicolon, hstop], hdot⟩

variable {m : ScriptModule}

theorem edits_foldl_remove (ds : List ImportDeclaration) (s : Edits) :
    ds.foldl (fun s d => s.remove d.span) s =
      ⟨s.edits ++ ds.map fun d => ⟨d.span, ""⟩, s.front⟩ := by
  induction ds generalizing s with
  | nil => simp
  | cons d ds ih => rw [List.foldl_cons, ih]; simp [Edits.remove, Edits.overwrite]

theorem standaloneCode_eq (m : ScriptModule) :
    standaloneCode m =
      (Edits.mk ((removedSpans m).map fun s => ⟨s, ""⟩) []).applyText m.code := by
  rw [standaloneCode, edits_foldl_remove, removedSpans, List.map_map]
  rfl

theorem mem_removedSpans {s : Span} :
    s ∈ removedSpans m ↔ ∃ front t back d, tokenize m.code = front ++ t :: back ∧
      importNodeAt? front.reverse t back = some (.declaration d) ∧
      d.source ∈ m.internalImports ∧ d.span = s := by
  rw [removedSpans, List.mem_map]
  constructor
  · rintro ⟨d, hd, rfl⟩
    obtain ⟨hd, hinternal⟩ := mem_internalDeclarations.mp hd
    obtain ⟨front, t, back, htokens, hread⟩ := exists_split_of_mem_importNodesFrom hd
    rw [List.append_nil] at hread
    exact ⟨front, t, back, d, htokens, hread, hinternal, rfl⟩
  · rintro ⟨front, t, back, d, htokens, hread, hinternal, rfl⟩
    refine ⟨d, mem_internalDeclarations.mpr ⟨?_, hinternal⟩, rfl⟩
    rw [importNodes, htokens]
    exact mem_importNodesFrom (by rwa [List.append_nil])

/-- A statement that goes away takes up tokens from its `import` on. -/
theorem exists_tokens_of_removed {s : Span} (hs : s ∈ removedSpans m) :
    ∃ before ts back, tokenize m.code = before ++ (ts ++ back) ∧ TakesUp s ts ∧
      ts.head?.map Token.kind = some (.ident "import") := by
  obtain ⟨front, t, back, d, htokens, hread, -, rfl⟩ := mem_removedSpans.mp hs
  obtain ⟨hword, -⟩ := importNodeAt?_cases hread
  obtain ⟨inner, rest, hts, htakes, -⟩ := takesUp_of_importNodeAt? hread
  exact ⟨front, t :: inner, rest, by rw [htokens, hts], htakes, by rw [List.head?_cons,
    Option.map_some, hword]⟩

/-- The statements start in order. -/
theorem pairwise_start_removedSpans (m : ScriptModule) :
    (removedSpans m).Pairwise fun s r => s.start < r.start := by
  rw [removedSpans, List.pairwise_map, internalDeclarations, List.pairwise_filterMap]
  refine (pairwise_importNodes m.code).imp fun {n n'} hlt d hd d' hd' => ?_
  cases n with
  | call c => cases hd
  | declaration e =>
      cases n' with
      | call c => cases hd'
      | declaration e' =>
          dsimp only at hd hd'
          split at hd
          · split at hd'
            · cases hd
              cases hd'
              exact hlt
            · cases hd'
          · cases hd

/-- Where they can be removed together, each ends before the next one starts. -/
theorem pairwise_stop_removedSpans {code : String} (h : standaloneCode m = .ok code) :
    (removedSpans m).Pairwise fun s r => s.stop ≤ r.start := by
  rw [standaloneCode_eq] at h
  obtain ⟨hfits, hvalid⟩ := Edits.valid_of_applyText h
  have hcompatible := List.pairwise_map.mp hvalid
  refine ((pairwise_start_removedSpans m).and hcompatible).imp_of_mem ?_
  intro s r _ hr ⟨hlt, happart⟩
  have hle := (hfits ⟨r, ""⟩ (List.mem_map_of_mem hr)).2.1
  simp only [Edit.Compatible] at happart hle
  omega

theorem text_standaloneCode {code : String} (h : standaloneCode m = .ok code) :
    code.toList = Edits.patched 0 m.code.toList ((removedSpans m).map fun s => ⟨s, ""⟩) := by
  have hapart := pairwise_stop_removedSpans h
  rw [standaloneCode_eq] at h
  cases hspans : removedSpans m with
  | nil =>
      rw [hspans] at h
      cases h
      rw [List.map_nil, Edits.patched_nil]
  | cons s ss =>
      rw [← hspans]
      have hvalid := Edits.valid_of_applyText h
      have hcalled : (Edits.mk ((removedSpans m).map fun s => ⟨s, ""⟩) []).isEmpty = false := by
        rw [hspans]
        rfl
      obtain ⟨body, hbody, htext⟩ := Edits.exists_splice_of_applyText h hcalled
      have hordered : Edits.ordered ((removedSpans m).map fun s => ⟨s, ""⟩) =
          (removedSpans m).map fun s => ⟨s, ""⟩ := by
        refine List.mergeSort_of_pairwise (List.pairwise_map.mpr ?_)
        refine (pairwise_start_removedSpans m).imp fun {s r} hlt => ?_
        simp [Edit.precedes, hlt]
      have haligned := hvalid.aligned (List.pairwise_map.mpr hapart)
      rw [hordered, haligned.spliceEach_eq, Option.some.injEq] at hbody
      rw [htext, ← hbody]
      rfl

/-- The tokens of the standalone code are those that are left, wherever they stand. -/
theorem kinds_standaloneCode {code : String} (h : standaloneCode m = .ok code)
    (hseam : Seamless (removedSpans m) (tokenize m.code)) :
    (tokenize code).map Token.kind =
      (uncovered (removedSpans m) (tokenize m.code)).map Token.kind := by
  have hapart := pairwise_stop_removedSpans h
  obtain ⟨ls, hcut⟩ : ∃ ls, Cut 0 (lexemes none m.code.toList) (removedSpans m) ls :=
    exists_cut (List.nil_append _).symm (fun s hs => exists_tokens_of_removed hs) hapart
      fun _ _ => Nat.zero_le _
  have hls := wellSpelled_lexemes none m.code.toList
  have hahead : Cut.Ahead (removedSpans m) 0 (removedSpans m) :=
    ⟨fun _ hs => hs, fun _ hs => .inr hs⟩
  have hchain : Chain none ls [] :=
    @Cut.chain _ _ _ _ _ hcut hls hahead none [] hseam (chain_lexemes none _) (.inl rfl)
  have htext : code.toList = spell ls := by
    have hcode : spell (lexemes none m.code.toList) = m.code.toList :=
      flatMap_text_lexemes none m.code.toList
    rw [text_standaloneCode h, ← hcut.patched_eq, hcode]
  have hlexemes : lexemes none code.toList = ls := by
    have hread := lexemes_chain hchain
    rwa [List.append_nil, lexemes, List.append_nil, ← htext] at hread
  rw [tokenize, hlexemes, map_kind_place]
  exact (hcut.kinds hls hahead).symm

/-- The token that a declaration which goes away is read at. -/
theorem covered_of_declaration {front back : List Token} {t : Token} {d : ImportDeclaration}
    (htokens : tokenize m.code = front ++ t :: back)
    (hread : importNodeAt? front.reverse t back = some (.declaration d))
    (hinternal : d.source ∈ m.internalImports) : covered (removedSpans m) t = true := by
  obtain ⟨inner, rest, hts, htakes, -⟩ := takesUp_of_importNodeAt? hread
  rw [hts] at htokens
  obtain ⟨hstart, hstop⟩ := htakes.encloses htokens t List.mem_cons_self
  rw [← hts] at htokens
  refine List.any_eq_true.mpr
    ⟨d.span, mem_removedSpans.mpr ⟨front, t, back, d, htokens, hread, hinternal, rfl⟩, ?_⟩
  rw [Bool.and_eq_true, decide_eq_true_eq, decide_eq_true_eq]
  exact ⟨hstart, hstop⟩

/-- Right in front of a token that is left, no statement that goes away ends with a dot. -/
theorem not_dot_of_covered {init back : List Token} {u t : Token}
    (htokens : tokenize m.code = init ++ u :: t :: back) (hu : covered (removedSpans m) u = true)
    (ht : covered (removedSpans m) t = false) : u.isPunct '.' = false := by
  obtain ⟨s, hs, hcovers⟩ := List.any_eq_true.mp hu
  rw [Bool.and_eq_true, decide_eq_true_eq, decide_eq_true_eq] at hcovers
  obtain ⟨front, word, behind, d, hsplit, hread, hinternal, rfl⟩ := mem_removedSpans.mp hs
  obtain ⟨hword, -, ⟨-, -, c, -, -, -, hcall⟩ | ⟨d', -, hd, hnode⟩⟩ := importNodeAt?_cases hread
  · cases hcall
  cases hnode
  obtain ⟨taken, z, rest, hts, hstop, hdot⟩ := last_of_declaration? hword hd
  have hmem : z ∈ init ++ u :: t :: back := by
    rw [← htokens, hsplit, hts]
    simp
  have hinOrder := inOrder_tokenize m.code
  rw [htokens] at hinOrder
  have hlt : ∀ v ∈ init ++ u :: t :: back, v.span.start < v.span.stop := hinOrder.1
  have hut : u.span.stop ≤ t.span.start :=
    InOrder.stop_le (a := init ++ [u]) (by simpa using hinOrder) (by simp) List.mem_cons_self
  have hcovered : z = t ∨ z ∈ back → covered (removedSpans m) t = true := by
    intro hz
    refine List.any_eq_true.mpr ⟨d.span, hs, ?_⟩
    rw [Bool.and_eq_true, decide_eq_true_eq, decide_eq_true_eq, hstop]
    have hu := hlt u (by simp)
    refine ⟨by omega, ?_⟩
    rcases hz with rfl | hz
    · exact Nat.le_refl _
    · have htz : t.span.stop ≤ z.span.start :=
        InOrder.stop_le (a := init ++ [u, t]) (by simpa using hinOrder) (by simp) hz
      have hz := hlt z hmem
      omega
  rcases List.mem_append.mp hmem with hz | hz
  · have hzu := hinOrder.stop_le hz List.mem_cons_self
    have hu := hlt u (by simp)
    omega
  · rcases List.mem_cons.mp hz with rfl | hz
    · exact hdot
    · rw [hcovered (List.mem_cons.mp hz)] at ht
      cases ht

/-- Behind a dot among the tokens of the text, a token that is left is behind it among those that
are left. -/
theorem head?_dot_of_uncovered {front back : List Token} {t : Token}
    (htokens : tokenize m.code = front ++ t :: back) (ht : covered (removedSpans m) t = false)
    (hdot : (uncovered (removedSpans m) front).reverse.head?.any (·.isPunct '.') = false) :
    front.reverse.head?.any (·.isPunct '.') = false := by
  rcases List.eq_nil_or_concat front with rfl | ⟨init, u, rfl⟩
  · rfl
  · rw [List.concat_eq_append] at htokens hdot ⊢
    rw [List.reverse_append]
    cases hu : covered (removedSpans m) u with
    | true => exact not_dot_of_covered (by simpa using htokens) hu ht
    | false => simpa [uncovered, hu] using hdot

theorem exists_split_of_uncovered {ss : List Span} {ts before behind : List Token} {t : Token}
    (h : uncovered ss ts = before ++ t :: behind) :
    ∃ front back, ts = front ++ t :: back ∧ uncovered ss front = before ∧
      covered ss t = false ∧ uncovered ss back = behind := by
  obtain ⟨front, more, rfl, rfl, hmore⟩ := List.filter_eq_append_iff.mp h
  obtain ⟨skipped, back, rfl, hskipped, ht, rfl⟩ := List.filter_eq_cons_iff.mp hmore
  refine ⟨front ++ skipped, back, by simp, ?_, by simpa using ht, rfl⟩
  rw [uncovered_append, @uncovered_eq_nil _ skipped (by simpa using hskipped),
    List.append_nil]
  rfl

/-- Among the tokens that are left no module of the unit is declared. -/
theorem not_mem_internalImports (hstanding : Standing m) {s : String}
    (h : s ∈ (importNodesFrom [] (uncovered (removedSpans m) (tokenize m.code))).filterMap
      declarationSource?) : s ∉ m.internalImports := by
  obtain ⟨n, hn, hs⟩ := List.mem_filterMap.mp h
  obtain ⟨before, t, behind, hleft, hread⟩ := exists_split_of_mem_importNodesFrom hn
  rw [List.append_nil] at hread
  obtain ⟨hword, hdot, -⟩ := importNodeAt?_cases hread
  obtain ⟨front, back, htokens, rfl, ht, rfl⟩ := exists_split_of_uncovered hleft
  have hdeclared : declaredAt? front.reverse t (uncovered (removedSpans m) back) = some s := by
    rw [declaredAt?_congr ((head?_dot_of_uncovered htokens ht hdot).trans hdot.symm), declaredAt?,
      hread]
    exact hs
  by_cases hmore : back.any (covered (removedSpans m)) = true
  · have hsplit : uncovered (removedSpans m) back =
        back.takeWhile (fun u => !covered (removedSpans m) u) ++
          uncovered (removedSpans m) (back.dropWhile fun u => !covered (removedSpans m) u) := by
      have hkept : uncovered (removedSpans m)
          (back.takeWhile fun u => !covered (removedSpans m) u) =
            back.takeWhile fun u => !covered (removedSpans m) u := by
        refine List.filter_eq_self.mpr fun u hu => ?_
        exact List.mem_takeWhile_imp (p := fun u => !covered (removedSpans m) u) hu
      rw [← hkept, ← uncovered_append, List.takeWhile_append_dropWhile]
    rw [hsplit] at hdeclared
    exact hstanding front t back htokens (beq_iff_eq.mpr hword) ht hmore _ s hdeclared
  · have hall : uncovered (removedSpans m) back = back := by
      rw [uncovered, List.filter_eq_self]
      simpa using hmore
    rw [hall] at hdeclared
    obtain ⟨d, hd, rfl⟩ := declaredAt?_eq_some_iff.mp hdeclared
    intro hinternal
    rw [covered_of_declaration htokens hd hinternal] at ht
    cases ht

/-- Of the modules of the unit the standalone code refers to those that it re-exports. -/
theorem mem_dependencies_standaloneCode {code : String} (h : standaloneCode m = .ok code)
    (hseam : Seamless (removedSpans m) (tokenize m.code)) (hstanding : Standing m) {s : String}
    (hs : s ∈ m.internalImports) : s ∈ dependencies code ↔ s ∈ reexports code := by
  rw [mem_dependencies, ← mem_declared]
  refine or_iff_right fun hdeclared => not_mem_internalImports hstanding ?_ hs
  rw [declared, importNodes, sources_importNodesFrom_congr (kinds_standaloneCode h hseam)]
    at hdeclared
  exact hdeclared

variable {f : ContentTransform} {t : FileTree} {c : Config} {r : BuildRequest}
  {g g' : ModuleGraph} {p : Pipeline} {cs : List Chunk} {context : Context}

/-- Every module in a unit of a build that comes through has its standalone code. -/
theorem Phases.exists_standaloneCode (h : Phases f t c r g g' p cs context) {unit : Chunk}
    (hunit : unit ∈ cs) (hm : m ∈ unit.moduleIds.filterMap g'.module?) :
    ∃ code, standaloneCode m = .ok code := by
  obtain ⟨s, assets, p', -, -, -, -, hfinished, -⟩ := h.exists_finished
  have hids : unit.moduleIds ≠ [] := by
    rintro hnil
    rw [hnil] at hm
    cases hm
  obtain ⟨code, hcode⟩ := hfinished.coded unit hunit hids
  obtain ⟨texts, htexts, -⟩ := map_eq_ok_iff.mp hcode
  obtain ⟨text, -, htext⟩ := exists_of_forall₂_of_mem (mapM_eq_ok_iff.mp htexts) hm
  obtain ⟨code, hcode, -⟩ := map_eq_ok_iff.mp htext
  exact ⟨code, hcode⟩

/-- In a build that comes through, the code of a module in a unit loses the declarations of modules
of the unit, and nothing else, unless the parts around one of them run together. It then refers to a
module of the unit only by what it re-exports, unless an `import` that stays reaches for what comes
behind. -/
theorem dependencies_standaloneCode (f : ContentTransform) (t : FileTree) (c : Config)
    (r : BuildRequest) {t' : FileTree} {report : BuildReport}
    (h : buildWith f t c r = (t', .ok report)) :
    ∃ g g' p cs context, Phases f t c r g g' p cs context ∧
      ∀ unit ∈ cs, ∀ m ∈ unit.moduleIds.filterMap g'.module?,
        ∃ code, standaloneCode m = .ok code ∧ (Seamless (removedSpans m) (tokenize m.code) →
          (tokenize code).map Token.kind =
              (uncovered (removedSpans m) (tokenize m.code)).map Token.kind ∧
            (Standing m →
              ∀ s ∈ m.internalImports, s ∈ dependencies code ↔ s ∈ reexports code)) := by
  obtain ⟨cs, context, hprepare⟩ := exists_prepareWith h
  obtain ⟨g, g', p, hphases⟩ := exists_phases hprepare
  refine ⟨g, g', p, cs, context, hphases, fun unit hunit m hm => ?_⟩
  obtain ⟨code, hcode⟩ := hphases.exists_standaloneCode hunit hm
  exact ⟨code, hcode, fun hseam => ⟨kinds_standaloneCode hcode hseam, fun hstanding s hs =>
    mem_dependencies_standaloneCode hcode hseam hstanding hs⟩⟩

/-- A script that imports a module of its own and one of a package, and a script that passes on what
a module exports. -/
def pageProject : FileTree :=
  ⟨[(["page.js"], .file ("import React from 'react';\nimport \x7b x \x7d from './x.js';\n" ++
      "render(React, x);\n").toUTF8),
    (["index.js"], .file "export \x7b x \x7d from './x.js';\n".toUTF8),
    (["x.js"], .file "export const x = 1;\n".toUTF8)], []⟩

def pageConfig (entrypoint : String × String) : Config :=
  ⟨⟨"page", "0.1.0"⟩, [entrypoint], Config.standardOutput, Config.standardStyles, ⟨"/"⟩⟩

/-- The script and what is left of it. -/
def pageCode : String :=
  "import React from 'react';\nimport \x7b x \x7d from './x.js';\nrender(React, x);\n"

def pageStandalone : String := "import React from 'react';\n\nrender(React, x);\n"

theorem run_page :
    (phases? .minify pageProject (pageConfig ("main", "page.js")) ⟨none, none⟩).any
      (fun (_, g', _, cs, _) => decide (∃ unit ∈ cs, ∃ m ∈ unit.moduleIds.filterMap g'.module?,
        m.code = pageCode ∧ m.internalImports = ["./x.js"] ∧ removedSpans m = [⟨27, 54⟩] ∧
          (standaloneCode m).toOption = some pageStandalone)) = true := by
  decide +kernel

/-- The import of the package stays, and takes nothing from behind it. -/
theorem standing_page (hcode : m.code = pageCode) (hinternal : m.internalImports = ["./x.js"])
    (hspans : removedSpans m = [⟨27, 54⟩]) : Standing m := by
  have htokens : (tokenize pageCode).take 6 =
      [⟨.ident "import", ⟨0, 6⟩⟩, ⟨.ident "React", ⟨7, 12⟩⟩, ⟨.ident "from", ⟨13, 17⟩⟩,
        ⟨.str "react", ⟨18, 25⟩⟩, ⟨.punct ';', ⟨25, 26⟩⟩, ⟨.ident "import", ⟨27, 33⟩⟩] := by
    decide +kernel
  have hothers : ∀ t ∈ (tokenize pageCode).drop 1, t.isIdent "import" = true →
      covered [⟨27, 54⟩] t = true := by
    decide +kernel
  intro front t back hsplit himport ht _ more s hs
  rw [hspans] at ht hs
  rw [hcode] at hsplit
  rw [hsplit] at htokens hothers
  cases front with
  | cons u front =>
      rw [hothers t (by simp) himport] at ht
      cases ht
  | nil =>
      obtain ⟨rfl, hback⟩ := List.cons.inj htokens
      have hdeclared : declaredAt? [] ⟨.ident "import", ⟨0, 6⟩⟩
          (⟨.ident "React", ⟨7, 12⟩⟩ :: ⟨.ident "from", ⟨13, 17⟩⟩ :: ⟨.str "react", ⟨18, 25⟩⟩ ::
            ⟨.punct ';', ⟨25, 26⟩⟩ :: more) = some "react" := by
        cases more <;> rfl
      have htaken : back.takeWhile (fun u => !covered [⟨27, 54⟩] u) =
          [⟨.ident "React", ⟨7, 12⟩⟩, ⟨.ident "from", ⟨13, 17⟩⟩, ⟨.str "react", ⟨18, 25⟩⟩,
            ⟨.punct ';', ⟨25, 26⟩⟩] := by
        rw [← List.take_append_drop 5 back, hback]
        rfl
      rw [htaken] at hs
      obtain rfl : "react" = s := Option.some.inj (hdeclared.symm.trans hs)
      rw [hinternal]
      decide

theorem dependencies_standaloneCode_page :
    let c := pageConfig ("main", "page.js")
    ∃ t' report g g' p cs context unit m code,
      buildWith .minify pageProject c ⟨none, none⟩ = (t', .ok report) ∧
      Phases .minify pageProject c ⟨none, none⟩ g g' p cs context ∧ unit ∈ cs ∧
      m ∈ unit.moduleIds.filterMap g'.module? ∧ standaloneCode m = .ok code ∧
      Seamless (removedSpans m) (tokenize m.code) ∧ Standing m ∧ "./x.js" ∈ m.internalImports ∧
      "./x.js" ∉ dependencies code := by
  intro c
  have hrun : (buildWith .minify pageProject c ⟨none, none⟩).2.isOk = true := by decide +kernel
  obtain ⟨t', report, hbuild⟩ := exists_report_of_isOk hrun
  obtain ⟨g, g', p, cs, context, hphases, hfacts⟩ := exists_phases_of_run run_page
  obtain ⟨unit, hunit, m, hm, hcode, hinternal, hspans, hleft⟩ := of_decide_eq_true hfacts
  obtain ⟨g₁, g₁', p₁, cs₁, context₁, hphases₁, hall⟩ :=
    dependencies_standaloneCode .minify pageProject c ⟨none, none⟩ hbuild
  obtain ⟨rfl, rfl, rfl, rfl, rfl⟩ := hphases.unique hphases₁
  obtain ⟨code, hstandalone, hiff⟩ := hall unit hunit m hm
  have hseam : Seamless (removedSpans m) (tokenize m.code) := by
    rw [hspans, hcode]
    decide +kernel
  have hstanding := standing_page hcode hinternal hspans
  have hmem : "./x.js" ∈ m.internalImports := by rw [hinternal]; decide
  obtain rfl : pageStandalone = code := by
    rw [hstandalone] at hleft
    exact (Option.some.inj hleft).symm
  refine ⟨t', report, g, g', p, cs, context, unit, m, _, hbuild, hphases, hunit, hm, hstandalone,
    hseam, hstanding, hmem, ?_⟩
  rw [(hiff hseam).2 hstanding _ hmem]
  decide +kernel

theorem run_index :
    (phases? .minify pageProject (pageConfig ("main", "index.js")) ⟨none, none⟩).any
      (fun (_, g', _, cs, _) => decide (∃ unit ∈ cs, ∃ m ∈ unit.moduleIds.filterMap g'.module?,
        m.internalImports = ["./x.js"] ∧
          (standaloneCode m).toOption = some "export \x7b x \x7d from './x.js';\n")) = true := by
  decide +kernel

/-- A script that passes on what a module exports keeps its reference to the module. -/
theorem dependencies_standaloneCode_reexported :
    let c := pageConfig ("main", "index.js")
    ∃ t' report g g' p cs context unit m code,
      build pageProject c ⟨none, none⟩ = (t', .ok report) ∧
      Phases .minify pageProject c ⟨none, none⟩ g g' p cs context ∧ unit ∈ cs ∧
      m ∈ unit.moduleIds.filterMap g'.module? ∧ standaloneCode m = .ok code ∧
      ∃ s ∈ m.internalImports, s ∈ dependencies code := by
  intro c
  have hrun : (buildWith .minify pageProject c ⟨none, none⟩).2.isOk = true := by decide +kernel
  obtain ⟨t', report, hbuild⟩ := exists_report_of_isOk hrun
  obtain ⟨g, g', p, cs, context, hphases, hfacts⟩ := exists_phases_of_run run_index
  obtain ⟨unit, hunit, m, hm, hinternal, hleft⟩ := of_decide_eq_true hfacts
  refine ⟨t', report, g, g', p, cs, context, unit, m, _, (build_eq _ _ _).trans hbuild, hphases,
    hunit, hm, toOption_eq_some_iff.mp hleft, "./x.js", by rw [hinternal]; decide, ?_⟩
  decide +kernel

end Build
end StyleBundler
