import StyleBundler.Proofs.Import.Clause
import StyleBundler.Proofs.Pack.Declared

/-!
What packing keeps of the names that an import declaration binds. The entry of a declaration has
one name for the default export and one for the namespace, and in both encodings these two are
declared in front of the packed unit; further names of the default export are not
(`bound_ofCode`).
-/

namespace StyleBundler

open Script

namespace Plan

/-- The entry of a declaration of the unit with this clause. -/
def IsEntryOf (store : AssetStore) (code : String) (c : ImportClause) (e : PlannedImport) : Prop :=
  ∃ front word ts keyword spec source rest,
    tokenize code = front ++ word :: (ts ++ keyword :: spec :: rest) ∧
    ts.map Token.kind = c.kinds ∧ keyword.kind = .ident "from" ∧ spec.kind = .str source ∧
    (importNodeAt? front.reverse word (ts ++ keyword :: spec :: rest)).bind (importOf? store) =
      some e

variable {store : AssetStore} {code : String} {c : ImportClause} {e : PlannedImport}

theorem IsEntryOf.mem_scan (h : IsEntryOf store code c e) : e ∈ scan store code := by
  obtain ⟨front, word, ts, keyword, spec, source, rest, htokens, -, -, -, hread⟩ := h
  obtain ⟨n, hn, he⟩ := Option.bind_eq_some_iff.mp hread
  refine List.mem_filterMap.mpr ⟨n, ?_, he⟩
  rw [importNodes, htokens]
  exact mem_importNodesFrom (by rwa [List.append_nil])

/-- The entry has what is read of the clause. -/
theorem IsEntryOf.binding_eq (h : IsEntryOf store code c e) :
    e.binding = .static c.keptName? c.wholeName? := by
  obtain ⟨front, word, ts, keyword, spec, source, rest, -, hts, hkeyword, hspec, hread⟩ := h
  obtain ⟨n, hn, he⟩ := Option.bind_eq_some_iff.mp hread
  obtain ⟨d, rfl, hdefault, hwhole⟩ := exists_declaration_of_importNodeAt? hn
    (ImportClause.isPunct_head? hts) (readClause?_of_kinds hts hkeyword hspec)
  rw [(exists_node_of_importOf? he).2, entryOf, hdefault, hwhole]

end Plan

namespace PackedUnit

variable {store : AssetStore} {mode : PackMode} {keyword : AttributeKeyword} {code : String}
  {u : PackedUnit}

/-- What the declarations of a plan bind is declared in front of the unit. -/
theorem mem_frontNames {p : Plan} {e : PlannedImport} (he : e ∈ p) {name : String}
    (hname : name ∈ e.binding.bound) : name ∈ frontNames store mode p := by
  cases mode with
  | combined => exact List.mem_append_right _ (List.mem_flatMap.mpr ⟨e, he, hname⟩)
  | exportedModules =>
      obtain ⟨binding, reference, span⟩ := e
      cases binding with
      | dynamic => cases hname
      | static localName whole =>
          obtain hname | hname := List.mem_append.mp hname
          · obtain rfl := Option.mem_toList.mp hname
            obtain ⟨place, hplace⟩ := List.mem_iff_getElem?.mp he
            exact List.mem_append_left _ (Exported.ReadBy.mem_names store ⟨hplace, rfl⟩)
          · refine List.mem_append_right _ (List.mem_filterMap.mpr ⟨_, he, ?_⟩)
            exact Option.mem_toList.mp hname

/-- What is left of the names that a declaration binds, once it is packed: the name of the default
export and that of the namespace that the entry has are declared in front of the unit. These are all
names of a plain clause. -/
theorem bound_ofCode (hs : store.Reachable) (h : ofCode store mode keyword code = .ok (some u)) :
    ∃ front body, u.IsMadeOf mode code front body ∧
      declaredNames front = frontNames store mode u.plan ∧
      ∀ c e, Plan.IsEntryOf store code c e →
        e ∈ u.plan ∧ e.binding = .static c.keptName? c.wholeName? ∧
        (∀ name ∈ c.keptName?.toList ++ c.wholeName?.toList, name ∈ declaredNames front) ∧
        (c.IsPlain → ∀ name ∈ c.defaultNames ++ c.wholeName?.toList, name ∈ declaredNames front) := by
  obtain ⟨hplan, front, body, hmade, hnames⟩ := exists_front_of_ofCode hs h
  refine ⟨front, body, hmade, hnames, fun c e he => ?_⟩
  have hmem : e ∈ u.plan := hplan ▸ he.mem_scan
  have hkept : ∀ name ∈ c.keptName?.toList ++ c.wholeName?.toList, name ∈ declaredNames front := by
    intro name hname
    rw [hnames]
    exact mem_frontNames hmem (by rwa [he.binding_eq])
  exact ⟨hmem, he.binding_eq, hkept, fun hplain => by rwa [hplain.defaultNames_eq]⟩

/-- One name of the default export, in braces. -/
theorem bound_ofCode_listed :
    let store := (AssetStore.empty true).fill (.ofContent true ⟨"/a.css"⟩ ".a\x7b\x7d")
    let code := "import \x7b default as s, \x7d from './__sheetpack_styles-cf290c7a.css' " ++
      "with \x7b type: 'css' \x7d;\n"
    let c : ImportClause := .listed none [.renamed "default" "s"] true
    ∃ u front body e, ofCode store .exportedModules .withClause code = .ok (some u) ∧
      u.IsMadeOf .exportedModules code front body ∧ Plan.IsEntryOf store code c e ∧ c.IsPlain ∧
      "s" ∈ declaredNames front := by
  intro store code c
  have hs : store.Reachable := .fill _ _ (.empty true)
  have htokens : tokenize code = ⟨.ident "import", ⟨0, 6⟩⟩ :: ([⟨.punct '{', ⟨7, 8⟩⟩,
      ⟨.ident "default", ⟨9, 16⟩⟩, ⟨.ident "as", ⟨17, 19⟩⟩, ⟨.ident "s", ⟨20, 21⟩⟩,
      ⟨.punct ',', ⟨21, 22⟩⟩, ⟨.punct '}', ⟨23, 24⟩⟩] ++ ⟨.ident "from", ⟨25, 29⟩⟩ ::
      ⟨.str "./__sheetpack_styles-cf290c7a.css", ⟨30, 65⟩⟩ :: (tokenize code).drop 9) := by
    rw [tokenize, String.toList_append, String.toList_ofList, String.toList_ofList]
    decide +kernel
  have hentry : Plan.IsEntryOf store code c ⟨.static (some "s") none,
      "./__sheetpack_styles-cf290c7a.css", ⟨0, 87⟩⟩ := by
    refine ⟨[], _, _, _, _, _, _, htokens, rfl, rfl, rfl, ?_⟩
    rw [tokenize, String.toList_append, String.toList_ofList, String.toList_ofList]
    decide +kernel
  have hscan : Plan.scan store code = [⟨.static (some "s") none,
      "./__sheetpack_styles-cf290c7a.css", ⟨0, 87⟩⟩] := by
    rw [Plan.scan, importNodes, tokenize, String.toList_append, String.toList_ofList,
      String.toList_ofList]
    decide +kernel
  obtain ⟨u, hu, -⟩ := exists_ofCode_of_keepsApart .exportedModules .withClause hscan
    (by simp) (by decide)
  obtain ⟨front, body, hmade, -, hbound⟩ := bound_ofCode hs hu
  have hplain : c.IsPlain := by decide
  obtain ⟨-, -, -, hall⟩ := hbound c _ hentry
  exact ⟨u, front, body, _, hu, hmade, hentry, hplain, hall hplain "s" (by decide)⟩

/-- Two names of the default export: in both encodings the second one is declared nowhere. -/
theorem bound_ofCode_two :
    let store := (AssetStore.empty true).fill (.ofContent true ⟨"/a.css"⟩ ".a\x7b\x7d")
    let code := "import \x7b default as a, default as b \x7d from " ++
      "'./__sheetpack_styles-cf290c7a.css' with \x7b type: 'css' \x7d;\nuse(a, b);\n"
    let c : ImportClause := .listed none [.renamed "default" "a", .renamed "default" "b"] false
    ∀ mode, ∃ u front body e, ofCode store mode .withClause code = .ok (some u) ∧
      u.IsMadeOf mode code front body ∧ Plan.IsEntryOf store code c e ∧ "b" ∈ c.defaultNames ∧
      "b" ∉ declaredNames front := by
  intro store code c mode
  have hs : store.Reachable := .fill _ _ (.empty true)
  have htokens : tokenize code = ⟨.ident "import", ⟨0, 6⟩⟩ :: ([⟨.punct '{', ⟨7, 8⟩⟩,
      ⟨.ident "default", ⟨9, 16⟩⟩, ⟨.ident "as", ⟨17, 19⟩⟩, ⟨.ident "a", ⟨20, 21⟩⟩,
      ⟨.punct ',', ⟨21, 22⟩⟩, ⟨.ident "default", ⟨23, 30⟩⟩, ⟨.ident "as", ⟨31, 33⟩⟩,
      ⟨.ident "b", ⟨34, 35⟩⟩, ⟨.punct '}', ⟨36, 37⟩⟩] ++ ⟨.ident "from", ⟨38, 42⟩⟩ ::
      ⟨.str "./__sheetpack_styles-cf290c7a.css", ⟨43, 78⟩⟩ :: (tokenize code).drop 12) := by
    rw [tokenize, String.toList_append, String.toList_ofList, String.toList_ofList]
    decide +kernel
  have hentry : Plan.IsEntryOf store code c ⟨.static (some "a") none,
      "./__sheetpack_styles-cf290c7a.css", ⟨0, 100⟩⟩ := by
    refine ⟨[], _, _, _, _, _, _, htokens, rfl, rfl, rfl, ?_⟩
    rw [tokenize, String.toList_append, String.toList_ofList, String.toList_ofList]
    decide +kernel
  have hscan : Plan.scan store code = [⟨.static (some "a") none,
      "./__sheetpack_styles-cf290c7a.css", ⟨0, 100⟩⟩] := by
    rw [Plan.scan, importNodes, tokenize, String.toList_append, String.toList_ofList,
      String.toList_ofList]
    decide +kernel
  obtain ⟨u, hu, hplan⟩ := exists_ofCode_of_keepsApart mode .withClause hscan (by simp)
    (by decide)
  obtain ⟨-, front, body, hmade, hnames⟩ := exists_front_of_ofCode hs hu
  refine ⟨u, front, body, _, hu, hmade, hentry, by decide, ?_⟩
  rw [hnames, hplan]
  cases mode with
  | combined => decide
  | exportedModules =>
      rw [frontNames, Exported.names_sheetExports]
      decide

end PackedUnit

end StyleBundler
