import StyleBundler.Proofs.Pack.Lead

/-!
Scanning a packed unit again. Packing edits the unit entry by entry; with what it puts in front,
the result is read as its own lexemes and imports no asset (`rescan_ofCode`), unless the parts
around a removed declaration run together, or another import reaches into what is replaced.
-/

namespace StyleBundler

open Script Text

namespace Plan

variable {store : AssetStore} {code : String}

/-- The node of an entry starts within what packing replaces. -/
theorem start_of_importOf? {n : ImportNode} {e : PlannedImport} (hn : n ∈ importNodes code)
    (he : importOf? store n = some e) :
    e.span.start ≤ n.span.start ∧ n.span.start < e.span.stop := by
  obtain ⟨front, t, back, htokens, hread⟩ := exists_split_of_mem_importNodesFrom hn
  rw [List.append_nil] at hread
  obtain ⟨before, ts, behind, hsplit, ht, hreplaces⟩ := exists_replaces htokens hread he
  have hbounds := hreplaces.takesUp.encloses hsplit t ht
  have hlt := (start_of_mem_place (wellSpelled_lexemes none code.toList) (t := t) (by
    rw [← tokenize, htokens]
    simp)).2
  rw [start_of_importNodeAt? hread]
  omega

/-- Entries that do not overlap come one behind the other. -/
theorem KeepsApart.pairwise_stop_le (h : (scan store code).KeepsApart) :
    (scan store code).Pairwise fun d e => d.span.stop ≤ e.span.start := by
  rw [KeepsApart, scan, List.pairwise_filterMap] at h
  rw [scan, List.pairwise_filterMap]
  refine ((pairwise_importNodes code).and h).imp_of_mem ?_
  intro m n hm hn hmn d hd e he
  have hdm := start_of_importOf? hm hd
  have hen := start_of_importOf? hn he
  have hapart := hmn.2 d hd e he
  have hlt := hmn.1
  omega

/-- What takes the places of the entries, as lexemes. -/
theorem exists_swaps {α : Type} {xs : List α} {entry : α → PlannedImport} {text : α → String}
    (hxs : xs.map entry = scan store code) (h : ∀ x ∈ xs, (entry x).FilledBy (text x)) :
    ∃ swaps : List (PlannedImport × List Lexeme), swaps.map Prod.fst = scan store code ∧
      swaps.map swapEdit = xs.map (fun x => ⟨(entry x).span, text x⟩) ∧
      ∀ x ∈ swaps, (scan store code).Swaps code x := by
  choose! new hspell hremoved hsettled using h
  refine ⟨xs.map fun x => (entry x, new x), ?_, ?_, ?_⟩
  · rw [List.map_map, ← hxs]
    rfl
  · rw [List.map_map]
    refine List.map_congr_left fun x hx => ?_
    rw [Function.comp_apply, swapEdit, hspell x hx, String.ofList_toList]
  · intro y hy
    obtain ⟨x, hx, rfl⟩ := List.mem_map.mp hy
    have hmem : entry x ∈ scan store code := hxs ▸ List.mem_map_of_mem hx
    exact ⟨hmem, exists_replaces_of_mem_scan hmem, hremoved x hx, hsettled x hx⟩

/-- The edits of entries that do not overlap apply in the order of the plan. -/
theorem ordered_swaps {swaps : List (PlannedImport × List Lexeme)}
    (hplan : swaps.map Prod.fst = scan store code)
    (hsorted : swaps.Pairwise fun x y => x.1.span.stop ≤ y.1.span.start) :
    Edits.ordered (swaps.map swapEdit) = swaps.map swapEdit := by
  refine List.mergeSort_of_pairwise (List.pairwise_map.mpr (hsorted.imp_of_mem ?_))
  intro x y hx _ hle
  obtain ⟨n, hn, he⟩ := List.mem_filterMap.mp (hplan ▸ List.mem_map_of_mem hx)
  have hlt := start_of_importOf? hn he
  have hstart : x.1.span.start < y.1.span.start := by omega
  simp [Edit.precedes, swapEdit, hstart]

/-- A unit whose entries have given way to texts that fill them, behind a text that can stand in
front, imports no asset. -/
theorem scan_eq_nil_of_applyText {s : Edits} {text : String} (happly : s.applyText code = .ok text)
    (hne : scan store code ≠ []) (hlead : IsLead store (String.join s.front))
    {α : Type} {xs : List α} {entry : α → PlannedImport} {fill : α → String}
    (hxs : xs.map entry = scan store code) (hfill : ∀ x ∈ xs, (entry x).FilledBy (fill x))
    (hedits : s.edits = xs.map fun x => ⟨(entry x).span, fill x⟩)
    (hseam : (scan store code).Seamless (tokenize code))
    (hstanding : (scan store code).Standing store (tokenize code)) : scan store text = [] := by
  obtain ⟨swaps, hplan, hswaps, hmade⟩ := exists_swaps hxs hfill
  rw [← hswaps] at hedits
  have hvalid := Edits.valid_of_applyText happly
  rw [hedits] at hvalid
  have hapart : (scan store code).KeepsApart := by
    rw [← hplan]
    exact List.pairwise_map.mpr (List.pairwise_map.mp hvalid.2)
  have hsorted : swaps.Pairwise fun x y => x.1.span.stop ≤ y.1.span.start := by
    have hpairwise := hapart.pairwise_stop_le
    rw [← hplan] at hpairwise
    exact List.pairwise_map.mp hpairwise
  have hremaining : (scan store code).Remaining code [] (lexemes none code.toList) swaps :=
    ⟨rfl, hmade, hsorted, fun _ _ => Nat.zero_le _, fun e he => .inr (hplan ▸ he)⟩
  obtain ⟨lead, hspell, hleads⟩ := hlead
  have hundotted : lastKind none lead ≠ some (.punct '.') := by
    rcases hleads.ends none with h | h <;> rw [h] <;> decide
  have hfirst : Joins (lastKind none lead) (some .regex) := by
    rcases hleads.ends none with h | h <;> rw [h] <;> decide
  obtain ⟨ls, hstitched, hpatched, -⟩ := exists_stitched hseam hfirst hremaining
  have hchain : Chain (lastKind none lead) ls [] :=
    hstitched.chain (chain_lexemes none code.toList) (.inl (hfirst.2 rfl))
  -- The text is what is in front and what is stitched together, and is read as both.
  have htext : text.toList = spell lead ++ (spell ls ++ []) := by
    have hcalled : s.isEmpty = false := by
      have hswapped : swaps ≠ [] := fun hnil => hne (by rw [← hplan, hnil]; rfl)
      simp [Edits.isEmpty, hedits, hswapped]
    obtain ⟨body, hbody, htext⟩ := Edits.exists_splice_of_applyText happly hcalled
    have haligned := hvalid.aligned (List.pairwise_map.mpr hsorted)
    rw [hedits, ordered_swaps hplan hsorted, haligned.spliceEach_eq, Option.some.injEq] at hbody
    have hcode : spell (lexemes none code.toList) = code.toList :=
      flatMap_text_lexemes none code.toList
    rw [htext, ← hbody, ← hspell, List.append_nil, ← hpatched, hcode]
    rfl
  have hlexemes : lexemes none text.toList = lead ++ ls := by
    rw [htext, lexemes_chain (hleads.chain none _), lexemes_chain hchain, lexemes,
      List.append_nil]
  rw [scan, importNodes, tokenize, hlexemes, place_append]
  refine Quiet.filterMap_eq_nil (Quiet.append (hleads.quiet _ _ _)
    (hstitched.quiet hstanding hremaining ?_ _))
  rw [head?_reverse_place]
  exact iff_of_false hundotted (by simp)

end Plan

end StyleBundler

namespace StyleBundler.PackedUnit

open Exported

theorem scan_ne_nil_of_ofCode {store : AssetStore} {mode : PackMode}
    {keyword : Script.AttributeKeyword} {code : String} {u : PackedUnit}
    (h : ofCode store mode keyword code = .ok (some u)) : Plan.scan store code ≠ [] := by
  intro hnil
  simp [ofCode, hnil] at h

theorem applyText_of_ofCode_combined {store : AssetStore} {keyword : Script.AttributeKeyword}
    {code : String} {u : PackedUnit} (h : ofCode store .combined keyword code = .ok (some u)) :
    (Combined.edits store keyword (Plan.scan store code)).applyText code = .ok u.code := by
  simp only [ofCode] at h
  split at h
  · cases h
  · cases hcode : (Combined.edits store keyword (Plan.scan store code)).applyText code with
    | error cause => simp [hcode, Except.map] at h
    | ok packed =>
        simp only [hcode, Except.map, Except.ok.injEq, Option.some.injEq] at h
        exact h ▸ rfl

/-- A packed unit imports no asset, and packing it again does nothing, in whatever mode: unless a
declaration that goes away leaves parts around it that run together, or another import can reach
what is replaced. -/
theorem rescan_ofCode {store : AssetStore} (hs : store.Reachable) {mode : PackMode}
    {keyword : Script.AttributeKeyword} {code : String} {u : PackedUnit}
    (h : ofCode store mode keyword code = .ok (some u))
    (hseam : (Plan.scan store code).Seamless (Script.tokenize code))
    (hstanding : (Plan.scan store code).Standing store (Script.tokenize code)) :
    Plan.scan store u.code = [] ∧
      ∀ mode' keyword', ofCode store mode' keyword' u.code = .ok none := by
  have hscan : Plan.scan store u.code = [] := by
    have hnames := fun e (he : e ∈ Plan.scan store code) => Plan.isName_of_mem_scan he
    have hne := scan_ne_nil_of_ofCode h
    cases mode with
    | exportedModules =>
        obtain ⟨hplan, -, happly⟩ := of_ofCode_exported h
        rw [hplan] at happly
        refine Plan.scan_eq_nil_of_applyText happly hne (isLead_front hs hnames)
          (List.zipIdx_map_fst 0 _) (fun x hx => ?_) (edits_edits _ _) hseam hstanding
        exact filledBy_replacement x.2
          (hnames x.1 (List.mem_of_getElem? (List.mem_zipIdx_iff_getElem?.mp hx)))
    | combined =>
        have hplain : ∀ e ∈ Plan.scan store code,
            e.sheetName.toList.all Script.Lexer.isPlain = true := by
          intro e he
          obtain ⟨a, ha⟩ := Plan.exists_referenced he
          exact Combined.isPlain_sheetName hs ha
        exact Plan.scan_eq_nil_of_applyText (applyText_of_ofCode_combined h) hne
          (Combined.isLead_front hs keyword hplain hnames) (List.map_id _)
          (fun e he => Combined.filledBy_replacement (hplain e he))
          (Combined.edits_edits _ _ _) hseam hstanding
  refine ⟨hscan, fun mode' keyword' => ?_⟩
  simp [ofCode, hscan]

/-- A unit with another import, a declaration behind it and an awaited call. -/
theorem rescan_beside_import :
    let store := (AssetStore.empty true).fill (.ofContent true ⟨"/a.css"⟩ ".a\x7b\x7d")
    let code := "import b from './b.js';\n" ++
      "import a from './__sheetpack_styles-cf290c7a.css' with \x7b type: 'css' \x7d;\n" ++
      "const s = await import('./__sheetpack_styles-cf290c7a.css', " ++
      "\x7b with: \x7b type: 'css' \x7d \x7d);\n"
    (Plan.scan store code).Seamless (Script.tokenize code) ∧
      (Plan.scan store code).Standing store (Script.tokenize code) ∧
      ∃ u, ofCode store .exportedModules .withClause code = .ok (some u) ∧ u.plan.length = 2 ∧
        Plan.scan store u.code = [] ∧
        ∀ mode' keyword', ofCode store mode' keyword' u.code = .ok none := by
  intro store code
  have hs : store.Reachable := .fill _ _ (.empty true)
  have ha : Digest.shortHashText ".a\x7b\x7d" = "cf290c7a" := by decide +kernel
  have hstore : store = (AssetStore.empty true).fill
      ⟨⟨"/a.css"⟩, "cf290c7a", Asset.nameOf true "cf290c7a", ".a\x7b\x7d"⟩ := by
    simp only [store, Asset.ofContent, ha]
  have hscan : Plan.scan store code =
      [⟨.static (some "a") none, "./__sheetpack_styles-cf290c7a.css", ⟨24, 95⟩⟩,
        ⟨.dynamic (some "s") true, "./__sheetpack_styles-cf290c7a.css", ⟨106, 182⟩⟩] := by
    rw [hstore, Plan.scan, Script.importNodes, Script.tokenize, String.toList_append,
      String.toList_append, String.toList_append, String.toList_ofList, String.toList_ofList,
      String.toList_ofList, String.toList_ofList]
    decide +kernel
  have hseam : (Plan.scan store code).Seamless (Script.tokenize code) := by
    rw [hscan, Script.tokenize, String.toList_append,
      String.toList_append, String.toList_append, String.toList_ofList, String.toList_ofList,
      String.toList_ofList, String.toList_ofList]
    decide +kernel
  have hstanding : (Plan.scan store code).Standing store (Script.tokenize code) := by
    obtain ⟨rest, htokens, hothers⟩ : ∃ rest, Script.tokenize code =
        ⟨.ident "import", ⟨0, 6⟩⟩ :: ⟨.ident "b", ⟨7, 8⟩⟩ :: ⟨.ident "from", ⟨9, 13⟩⟩ ::
          ⟨.str "./b.js", ⟨14, 22⟩⟩ :: rest ∧
        ∀ t ∈ (Script.tokenize code).tail, t.isIdent "import" = true →
          (Plan.scan store code).covers t = true := by
      refine ⟨(Script.tokenize code).drop 4, ?_⟩
      rw [hscan, Script.tokenize, String.toList_append, String.toList_append, String.toList_append,
        String.toList_ofList, String.toList_ofList, String.toList_ofList, String.toList_ofList]
      decide +kernel
    have hread : ∀ before t ts, Plan.plansAt store before t
        (⟨.ident "b", ⟨7, 8⟩⟩ :: ⟨.ident "from", ⟨9, 13⟩⟩ :: ⟨.str "./b.js", ⟨14, 22⟩⟩ :: ts) =
          false := by
      intro before t ts
      refine Plan.plansAt_of_readClause? rfl fun bound source span rest hread => ?_
      cases hread
      rw [hstore]
      decide +kernel
    have hstart : ∀ e ∈ Plan.scan store code, 14 < e.span.start := by
      rw [hscan]
      decide
    intro front t back hsplit himport hcovers e he _
    cases front with
    | nil =>
        rw [htokens, List.nil_append] at hsplit
        obtain ⟨rfl, rfl⟩ := List.cons.inj hsplit
        have hlt := hstart e he
        have hseven : 7 < e.span.start := by omega
        have hnine : 9 < e.span.start := by omega
        simp [Plan.Decided, hlt, hseven, hnine, hread]
    | cons u front =>
        have ht : t ∈ (Script.tokenize code).tail := by simp [hsplit]
        exact absurd ((hothers t ht himport).symm.trans hcovers) (by simp)
  obtain ⟨u, packed, hu, huplan, -⟩ := by
    refine exists_ofCode_exported .withClause hscan (by simp) ?_ (by decide +kernel) ?_
    · rw [hstore]
      decide +kernel
    · rw [String.toList_append, String.toList_append, String.toList_append, String.toList_ofList,
        String.toList_ofList, String.toList_ofList, String.toList_ofList]
      decide +kernel
  exact ⟨hseam, hstanding, u, hu, by rw [huplan]; rfl, rescan_ofCode hs hu hseam hstanding⟩

/-- A call in front of a removed declaration, and a regular expression behind it: with the
declaration gone its slashes divide, and the import in it is one of the unit. -/
theorem rescan_division :
    let store := (AssetStore.empty true).fill (.ofContent true ⟨"/a.css"⟩ ".a\x7b\x7d")
    let code := "f()\nimport a from './__sheetpack_styles-cf290c7a.css' with \x7b type: 'css' \x7d;\n" ++
      "/import('.\\/__sheetpack_styles-cf290c7a.css', \x7b with: \x7b type: 'css' \x7d \x7d)/g\n"
    ∃ u, ofCode store .exportedModules .withClause code = .ok (some u) ∧
      Plan.scan store u.code ≠ [] := by
  intro store code
  have ha : Digest.shortHashText ".a\x7b\x7d" = "cf290c7a" := by decide +kernel
  have hstore : store = (AssetStore.empty true).fill
      ⟨⟨"/a.css"⟩, "cf290c7a", Asset.nameOf true "cf290c7a", ".a\x7b\x7d"⟩ := by
    simp only [store, Asset.ofContent, ha]
  have hscan : Plan.scan store code =
      [⟨.static (some "a") none, "./__sheetpack_styles-cf290c7a.css", ⟨4, 75⟩⟩] := by
    rw [hstore, Plan.scan, Script.importNodes, Script.tokenize, String.toList_append,
      String.toList_ofList, String.toList_ofList]
    decide +kernel
  obtain ⟨u, packed, hu, huplan, hpacked⟩ := by
    refine exists_ofCode_exported .withClause hscan (by simp) ?_ (by decide +kernel) ?_
    · rw [hstore]
      decide +kernel
    · rw [String.toList_append, String.toList_ofList, String.toList_ofList]
      decide +kernel
  obtain ⟨-, hartifact, happly⟩ := of_ofCode_exported hu
  have hcalled : (edits store u.plan).isEmpty = false := by
    rw [Edits.isEmpty, edits_edits, huplan]
    rfl
  obtain ⟨body, hbody, hcode⟩ := Edits.exists_splice_of_applyText happly hcalled
  have hname : packed.name = "bundle-73d28058.js" := by
    have hnamed : (artifact? store u.plan).map Artifact.name = some "bundle-73d28058.js" := by
      rw [huplan, hstore]
      decide +kernel
    rw [hartifact.symm.trans hpacked] at hnamed
    exact Option.some.inj hnamed
  have hfront : String.join (edits store u.plan).front =
      "import \x7b a \x7d from './bundle-73d28058.js';\n" := by
    rw [edits_front (hartifact.symm.trans hpacked), huplan, hstore, hname]
    decide +kernel
  have hbody : body = ("f()\n\n/import('.\\/__sheetpack_styles-cf290c7a.css', " ++
      "\x7b with: \x7b type: 'css' \x7d \x7d)/g\n").toList := by
    rw [edits_edits, huplan, Edits.ordered, List.mergeSort_of_pairwise (by decide +kernel),
      String.toList_append, String.toList_ofList, String.toList_ofList] at hbody
    rw [String.toList_append, String.toList_ofList, String.toList_ofList]
    refine Option.some.inj (hbody.symm.trans ?_)
    decide +kernel
  refine ⟨u, hu, ?_⟩
  rw [hstore, Plan.scan, Script.importNodes, Script.tokenize, hcode, hfront, hbody,
    String.toList_append, String.toList_ofList, String.toList_ofList, String.toList_ofList]
  decide +kernel

end StyleBundler.PackedUnit
