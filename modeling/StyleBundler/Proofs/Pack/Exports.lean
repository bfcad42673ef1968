import StyleBundler.Proofs.Edit.Calls
import StyleBundler.Proofs.Import.Tokens
import StyleBundler.Proofs.Pack.Exported

/-!
The shape of a generated module and of the unit that reads it. The readers that contribute an
export are those with a local name of their own; the first of them for a reference constructs
the sheet, and the others give it another name (`sheetExports_eq`). Packing fails only for
entries that overlap, as of a call inside the options of another one (`exports_ofCode`).
-/

namespace StyleBundler.Edits

theorem applyText_eq_error_iff {s : Edits} {source : String} {err : EditError} :
    s.applyText source = .error err ↔ s.apply source.toList = .error err := by
  rw [applyText]
  cases s.apply source.toList <;> simp [Except.map]

theorem valid_of_applyText {s : Edits} {source code : String} (h : s.applyText source = .ok code) :
    Valid source.toList s.edits := by
  by_contra hinvalid
  obtain ⟨err, herr⟩ := exists_error_iff.mpr hinvalid
  cases h.symm.trans (applyText_eq_error_iff.mpr herr)

theorem exists_splice_of_applyText {s : Edits} {source code : String}
    (h : s.applyText source = .ok code) (hcalled : s.isEmpty = false) :
    ∃ body, spliceEach source.toList (ordered s.edits) = some body ∧
      code.toList = (String.join s.front).toList ++ body := by
  rw [applyText] at h
  cases happly : s.apply source.toList with
  | error err => simp [happly, Except.map] at h
  | ok edited =>
      cases edited with
      | none => simp [apply_eq_none_iff.mp happly] at hcalled
      | some r =>
          obtain ⟨-, body, hbody, hr⟩ := exists_splice_of_apply happly
          rw [happly] at h
          cases h
          exact ⟨body, hbody, by rw [String.toList_ofList, hr]⟩

end StyleBundler.Edits

namespace StyleBundler.Exported

/-- The readers whose local name is not taken, in front or by an earlier one. -/
def contributorsFrom (taken : List String) :
    List (String × PlannedImport) → List (String × PlannedImport)
  | [] => []
  | r :: rest =>
      if r.1 ∈ taken then contributorsFrom taken rest
      else r :: contributorsFrom (r.1 :: taken) rest

/-- The entries that contribute an export, each with its local name. -/
def contributors (p : Plan) : List (String × PlannedImport) := contributorsFrom [] (readers 0 p)

/-- The first contributor for a reference. -/
def firstFor? (cs : List (String × PlannedImport)) (reference : String) :
    Option (String × PlannedImport) :=
  cs.find? fun c => c.2.reference = reference

/-- The export of a contributor: the sheet itself if it is the first one for its reference. -/
def exportOf (store : AssetStore) (cs : List (String × PlannedImport))
    (c : String × PlannedImport) : SheetExport :=
  let first := ((firstFor? cs c.2.reference).map Prod.fst).getD c.1
  if first = c.1 then .constructed c.1 (contentOf store c.2.reference) else .renamed first c.1

theorem name_exportOf (store : AssetStore) (cs : List (String × PlannedImport))
    (c : String × PlannedImport) : (exportOf store cs c).name = c.1 := by
  rw [exportOf]
  split <;> rfl

theorem firstFor?_append (cs more : List (String × PlannedImport)) (reference : String) :
    firstFor? (cs ++ more) reference =
      (firstFor? cs reference).or (firstFor? more reference) :=
  List.find?_append

theorem exists_firstFor? {cs : List (String × PlannedImport)} {c : String × PlannedImport}
    (h : c ∈ cs) : ∃ first, firstFor? cs c.2.reference = some first := by
  rw [← Option.isSome_iff_exists, firstFor?, List.find?_isSome]
  exact ⟨c, h, decide_eq_true rfl⟩

theorem mem_contributorsFrom {taken : List String} {rs : List (String × PlannedImport)}
    {c : String × PlannedImport} (h : c ∈ contributorsFrom taken rs) : c ∈ rs ∧ c.1 ∉ taken := by
  induction rs generalizing taken with
  | nil => cases h
  | cons r rs ih =>
      rw [contributorsFrom] at h
      split at h
      · exact ⟨List.mem_cons_of_mem _ (ih h).1, (ih h).2⟩
      · next hr =>
          rcases List.mem_cons.mp h with rfl | h
          · exact ⟨List.mem_cons_self, hr⟩
          · exact ⟨List.mem_cons_of_mem _ (ih h).1, mt (List.mem_cons_of_mem _) (ih h).2⟩

theorem nodup_contributorsFrom (taken : List String) (rs : List (String × PlannedImport)) :
    ((contributorsFrom taken rs).map Prod.fst).Nodup := by
  induction rs generalizing taken with
  | nil => exact .nil
  | cons r rs ih =>
      rw [contributorsFrom]
      split
      · exact ih taken
      · rw [List.map_cons, List.nodup_cons]
        refine ⟨fun h => ?_, ih _⟩
        obtain ⟨c, hc, hname⟩ := List.mem_map.mp h
        exact (mem_contributorsFrom hc).2 (hname ▸ List.mem_cons_self)

theorem nodup_contributors (p : Plan) : ((contributors p).map Prod.fst).Nodup :=
  nodup_contributorsFrom [] _

/-- Every local name is contributed. -/
theorem exists_contributor {taken : List String} {rs : List (String × PlannedImport)}
    {r : String × PlannedImport} (h : r ∈ rs) (htaken : r.1 ∉ taken) :
    r.1 ∈ (contributorsFrom taken rs).map Prod.fst := by
  induction rs generalizing taken with
  | nil => cases h
  | cons r' rs ih =>
      rw [contributorsFrom]
      by_cases hname : r.1 = r'.1
      · rw [if_neg (hname ▸ htaken)]
        rw [hname]
        exact List.mem_cons_self
      · have hrs : r ∈ rs := (List.mem_cons.mp h).resolve_left fun heq => hname (heq ▸ rfl)
        split
        · exact ih hrs htaken
        · exact List.mem_cons_of_mem _ (ih hrs (List.not_mem_cons_of_ne_of_not_mem hname htaken))

/-- The exports behind those of the contributors `done`, whose first ones for each reference are
at hand. -/
theorem exportsFrom_eq {store : AssetStore} {first : List (String × String)} {taken : List String}
    (done rs : List (String × PlannedImport))
    (htaken : ∀ name, name ∈ taken ↔ name ∈ done.map Prod.fst)
    (hfirst : ∀ reference, first.lookup reference = (firstFor? done reference).map Prod.fst) :
    exportsFrom store first taken rs = (contributorsFrom taken rs).map
      (exportOf store (done ++ contributorsFrom taken rs)) := by
  induction rs generalizing first taken done with
  | nil => rfl
  | cons r rs ih =>
      obtain ⟨name, e⟩ := r
      by_cases hname : name ∈ taken
      · rw [exportsFrom, contributorsFrom, if_pos (by simpa using hname), if_pos hname]
        exact ih done htaken hfirst
      · rw [exportsFrom, contributorsFrom, if_neg (by simpa using hname), if_neg hname]
        have htaken' : ∀ other : String, other ∈ name :: taken ↔
            other ∈ (done ++ [(name, e)]).map Prod.fst := by
          intro other
          simp [htaken other, or_comm]
        have hown := hfirst e.reference
        rw [List.map_cons, exportOf, firstFor?_append]
        cases hdone : firstFor? done e.reference with
        | some d =>
            rw [hdone, Option.map_some] at hown
            have hne : d.1 ≠ name := by
              rintro rfl
              exact hname ((htaken _).mpr (List.mem_map_of_mem (List.mem_of_find?_eq_some hdone)))
            have hfirst' : ∀ reference : String, first.lookup reference =
                (firstFor? (done ++ [(name, e)]) reference).map Prod.fst := by
              intro reference
              rw [firstFor?_append, hfirst]
              by_cases hreference : e.reference = reference
              · rw [← hreference, hdone, Option.some_or]
              · simp [firstFor?, hreference]
            simp only [hown, Option.some_or, Option.map_some, Option.getD_some, hne, if_false,
              ih _ htaken' hfirst', List.append_assoc, List.singleton_append]
        | none =>
            rw [hdone, Option.map_none] at hown
            have hfirst' : ∀ reference : String, ((e.reference, name) :: first).lookup reference =
                (firstFor? (done ++ [(name, e)]) reference).map Prod.fst := by
              intro reference
              rw [firstFor?_append, List.lookup_cons, hfirst]
              by_cases hreference : reference = e.reference
              · rw [hreference, hdone]
                simp [firstFor?]
              · simp [firstFor?, beq_eq_false_iff_ne.mpr hreference, Ne.symm hreference]
            simp only [hown, Option.none_or, ih _ htaken' hfirst', List.append_assoc,
              List.singleton_append]
            simp [firstFor?, contentOf]

theorem sheetExports_eq (store : AssetStore) (p : Plan) :
    sheetExports store p = (contributors p).map (exportOf store (contributors p)) :=
  exportsFrom_eq [] (readers 0 p) (fun _ => Iff.rfl) fun _ => rfl

theorem names_sheetExports (store : AssetStore) (p : Plan) :
    (sheetExports store p).map SheetExport.name = (contributors p).map Prod.fst := by
  simp [sheetExports_eq, name_exportOf]

/-- A contributor constructs the sheet of a reference, and each other contributor for the
reference comes behind it and gives that sheet another name. -/
def ConstructedOnce (cs : List (String × PlannedImport)) (exported : List SheetExport)
    (reference content : String) : Prop :=
  ∃ (place : Nat) (first : String) (d : PlannedImport),
    cs[place]? = some (first, d) ∧ d.reference = reference ∧
    exported[place]? = some (.constructed first content) ∧
    ∀ (place' : Nat) (name : String) (e : PlannedImport), cs[place']? = some (name, e) →
      e.reference = reference → place' ≠ place →
      place < place' ∧ exported[place']? = some (.renamed first name)

theorem constructedOnce_sheetExports (store : AssetStore) {p : Plan} {c : String × PlannedImport}
    (h : c ∈ contributors p) :
    ConstructedOnce (contributors p) (sheetExports store p) c.2.reference
      (contentOf store c.2.reference) := by
  rw [sheetExports_eq]
  have hnodup := nodup_contributors p
  generalize contributors p = cs at h hnodup ⊢
  obtain ⟨first, hfirst⟩ := exists_firstFor? h
  obtain ⟨hreference, place, hplace, hfound, hbefore⟩ := List.find?_eq_some_iff_getElem.mp hfirst
  have hreference : first.2.reference = c.2.reference := of_decide_eq_true hreference
  have hget : cs[place]? = some first := List.getElem?_eq_some_iff.mpr ⟨hplace, hfound⟩
  refine ⟨place, first.1, first.2, hget, hreference, ?_, ?_⟩
  · rw [List.getElem?_map, hget, Option.map_some, exportOf, hreference, hfirst]
    simp
  · intro place' name e hget' he hne
    obtain ⟨hplace', hget''⟩ := List.getElem?_eq_some_iff.mp hget'
    have hlt : place < place' := by
      by_contra hle
      have := hbefore place' (by omega)
      rw [hget''] at this
      simp [he] at this
    refine ⟨hlt, ?_⟩
    have hname : first.1 ≠ name := by
      have := List.pairwise_iff_getElem.mp (List.pairwise_map.mp hnodup) _ _ hplace hplace' hlt
      rwa [hfound, hget''] at this
    rw [List.getElem?_map, hget', Option.map_some, exportOf, he, hfirst]
    simp [hname]

theorem ReadBy.mem_names (store : AssetStore) {p : Plan} {place : Nat} {e : PlannedImport}
    {name : String} (h : ReadBy p place e name) :
    name ∈ (sheetExports store p).map SheetExport.name := by
  rw [names_sheetExports]
  exact exists_contributor h.mem_readers List.not_mem_nil

/-- The exports of a module are those that the statements of the unit name. -/
structure Serves (store : AssetStore) (p : Plan) (exported : List SheetExport) : Prop where
  distinct : (exported.map SheetExport.name).Nodup
  /-- The expression in the place of a call settles to an export. -/
  calls : ∀ (place : Nat) (e : PlannedImport) (variableName : Option String) (awaited : Bool),
    p[place]? = some e → e.binding = .dynamic variableName awaited →
      ∃ name ∈ exported.map SheetExport.name,
        replacement place e = settledPromise name awaited
  /-- A namespace object holds an export. -/
  objects : ∀ c ∈ readers 0 p, c.1 ∈ exported.map SheetExport.name
  contributed : exported.map SheetExport.name = (contributors p).map Prod.fst
  constructed : ∀ c ∈ contributors p,
    ConstructedOnce (contributors p) exported c.2.reference (contentOf store c.2.reference)

theorem serves_sheetExports (store : AssetStore) (p : Plan) :
    Serves store p (sheetExports store p) where
  distinct := by
    rw [names_sheetExports]
    exact nodup_contributors p
  calls := by
    intro place e variableName awaited hplace hbinding
    obtain ⟨name, hname⟩ : ∃ name, localName? place e = some name := by
      rw [localName?, hbinding]
      cases variableName <;> exact ⟨_, rfl⟩
    refine ⟨name, ReadBy.mem_names store ⟨hplace, hname⟩, ?_⟩
    rw [replacement, hbinding, hname]
  objects := by
    rintro ⟨name, e⟩ hread
    obtain ⟨place, hread⟩ := exists_readBy hread
    exact hread.mem_names store
  contributed := names_sheetExports store p
  constructed _ := constructedOnce_sheetExports store

theorem isSome_localName?_iff (place : Nat) {e : PlannedImport} :
    (localName? place e).isSome = true ↔ e.binding ≠ .static none none := by
  obtain ⟨binding, reference, span⟩ := e
  rcases binding with ⟨_ | name, _ | whole⟩ | ⟨_ | name, awaited⟩ <;> simp [localName?]

/-- There is a module if some entry is more than an import for its side effects. -/
theorem isSome_artifact?_iff (store : AssetStore) (p : Plan) :
    (artifact? store p).isSome = true ↔ ∃ e ∈ p, e.binding ≠ .static none none := by
  have hexports : (artifact? store p).isSome = true ↔ sheetExports store p ≠ [] := by
    simp only [artifact?, List.isEmpty_iff]
    split <;> simp [*]
  rw [hexports]
  constructor
  · intro hne
    obtain ⟨x, hx⟩ := List.exists_mem_of_ne_nil _ hne
    have hname := List.mem_map_of_mem (f := SheetExport.name) hx
    rw [names_sheetExports] at hname
    obtain ⟨c, hc, -⟩ := List.mem_map.mp hname
    obtain ⟨place, hplace, hread⟩ := exists_readBy (mem_contributorsFrom hc).1
    exact ⟨c.2, List.mem_of_getElem? hplace,
      (isSome_localName?_iff place).mp (Option.isSome_iff_exists.mpr ⟨_, hread⟩)⟩
  · rintro ⟨e, he, hbinding⟩ hnil
    obtain ⟨place, hplace⟩ := List.mem_iff_getElem?.mp he
    obtain ⟨name, hname⟩ :=
      Option.isSome_iff_exists.mp ((isSome_localName?_iff place).mpr hbinding)
    have hread : ReadBy p place e name := ⟨hplace, hname⟩
    have hmem := hread.mem_names store
    rw [hnil] at hmem
    cases hmem

/-- Without a module there is nothing in front of the unit. -/
theorem front_eq_nil {store : AssetStore} {p : Plan} (h : artifact? store p = none) :
    (edits store p).front = [] := by
  simp [edits, h, edits_replaceFrom, Edits.empty]

end StyleBundler.Exported

namespace StyleBundler.Plan

open Exported

/-- Any two entries replace different parts of the unit. -/
def KeepsApart (p : Plan) : Prop :=
  p.Pairwise fun d e => d.span.stop ≤ e.span.start ∨ e.span.stop ≤ d.span.start

instance (p : Plan) : Decidable p.KeepsApart :=
  inferInstanceAs (Decidable (List.Pairwise _ _))

/-- Whether entries keep apart is whether the edits in their places are valid. -/
theorem keepsApart_iff_of_map_span {store : AssetStore} {code : String} {es : List Edit}
    (hspans : es.map Edit.span = (scan store code).map PlannedImport.span) :
    (scan store code).KeepsApart ↔ Edits.Valid code.toList es := by
  have hfit : ∀ e ∈ es, e.IsValid code.toList := by
    intro r hr
    have hspan := List.mem_map_of_mem (f := Edit.span) hr
    rw [hspans] at hspan
    obtain ⟨e, he, hspan⟩ := List.mem_map.mp hspan
    have hfits := isValid_of_mem_scan he r.replacement
    rwa [hspan] at hfits
  have hpairwise : es.Pairwise Edit.Compatible ↔
      (es.map Edit.span).Pairwise fun s t => s.stop ≤ t.start ∨ t.stop ≤ s.start := by
    rw [List.pairwise_map]
    rfl
  rw [Edits.Valid, and_iff_right hfit, hpairwise, hspans, List.pairwise_map, KeepsApart]

theorem keepsApart_iff_valid (store : AssetStore) (code : String) :
    (scan store code).KeepsApart ↔
      Edits.Valid code.toList (edits store (scan store code)).edits := by
  refine keepsApart_iff_of_map_span ?_
  rw [edits_edits, List.map_map]
  exact (List.map_map (l := (scan store code).zipIdx) (f := Prod.fst)
    (g := PlannedImport.span)).symm.trans (by rw [List.zipIdx_map_fst])

end StyleBundler.Plan

namespace StyleBundler.PackedUnit

open Exported

/-- What packing into a module comes to. It fails just when two entries overlap, and does nothing
just for an empty plan. Otherwise there is a module if some entry is more than an import for its
side effects; the unit then starts with the import of what the module exports and the namespace
objects, each entry gives way to its own text once, and the exports serve the unit. -/
theorem exports_ofCode (store : AssetStore) (keyword : Script.AttributeKeyword) (code : String) :
    let p := Plan.scan store code
    let exported := sheetExports store p
    ((∃ err, ofCode store .exportedModules keyword code = .error err) ↔ ¬p.KeepsApart) ∧
      (∀ err, ofCode store .exportedModules keyword code = .error err →
        ∃ e ∈ p, err = .overlapping e.span) ∧
      (ofCode store .exportedModules keyword code = .ok none ↔ p = []) ∧
      ∀ u, ofCode store .exportedModules keyword code = .ok (some u) →
        u.plan = p ∧
        (u.artifact.isSome = true ↔ ∃ e ∈ p, e.binding ≠ .static none none) ∧
        (∃ front body, u.code.toList = front ++ body ∧
          Edits.spliceEach code.toList (Edits.ordered
            (p.zipIdx.map fun x => ⟨x.1.span, replacement x.2 x.1⟩)) = some body ∧
          (u.artifact = none → front = []) ∧
          ∀ packed, u.artifact = some packed →
            packed.source = source exported ∧
            front = (loadStatement (exported.map SheetExport.name) packed.name ++
              namespaceObjects p).toList) ∧
        Serves store p exported := by
  intro p exported
  have heq : ofCode store .exportedModules keyword code =
      if p.isEmpty then .ok none
      else ((edits store p).applyText code).map fun text =>
        some ⟨text, artifact? store p, p⟩ := rfl
  have herror : ∀ err, ofCode store .exportedModules keyword code = .error err ↔
      (edits store p).apply code.toList = .error err := by
    intro err
    rw [heq, ← Edits.applyText_eq_error_iff]
    split
    · next hempty =>
        rw [List.isEmpty_iff] at hempty
        have hnone : (edits store p).applyText code = .ok code := by
          rw [hempty]
          rfl
        rw [hnone]
        simp
    · cases (edits store p).applyText code <;> simp [Except.map]
  have hvalid := Plan.keepsApart_iff_valid store code
  refine ⟨?error, ?overlapping, ?none, ?packed⟩
  case error =>
    simp only [herror]
    rw [Edits.exists_error_iff, hvalid]
  case overlapping =>
    intro err herr
    obtain ⟨front, e, back, horder, -, hoffence⟩ :=
      Edits.apply_eq_error_iff_first.mp ((herror err).mp herr)
    have he : e ∈ (edits store p).edits := by
      rw [← (Edits.ordered_perm _).mem_iff, horder]
      simp
    rw [edits_edits] at he
    obtain ⟨x, hx, rfl⟩ := List.mem_map.mp he
    have hx := List.mem_of_getElem? (List.mem_zipIdx_iff_getElem?.mp hx)
    refine ⟨x.1, hx, ?_⟩
    rw [Edit.offence?_eq_some hoffence, if_pos (Plan.isValid_of_mem_scan hx _)]
  case none =>
    rw [heq]
    cases hp : p with
    | nil => simp
    | cons e es => cases (edits store (e :: es)).applyText code <;> simp [Except.map]
  case packed =>
    intro u hu
    obtain ⟨hplan, hartifact, happly⟩ := of_ofCode_exported hu
    have hplan : u.plan = p := hplan
    rw [hplan] at hartifact happly
    have hcalled : (edits store p).isEmpty = false := by
      rw [Edits.isEmpty, edits_edits]
      cases hp : p with
      | nil => simp [heq, hp] at hu
      | cons e es => rfl
    obtain ⟨body, hbody, hcode⟩ := Edits.exists_splice_of_applyText happly hcalled
    rw [edits_edits] at hbody
    refine ⟨hplan, ?_, ⟨_, body, hcode, hbody, ?_, ?_⟩, serves_sheetExports store p⟩
    · rw [hartifact, isSome_artifact?_iff]
    · intro hnone
      rw [front_eq_nil (hartifact.symm.trans hnone)]
      rfl
    · intro packed hpacked
      have hpacked := hartifact.symm.trans hpacked
      exact ⟨source_of_artifact? hpacked, by rw [edits_front hpacked]⟩

/-- Three readers of one sheet, by two names of their own and one for a call. -/
theorem exports_ofCode_alias :
    let store := (AssetStore.empty true).fill (.ofContent true ⟨"/a.css"⟩ ".a\x7b\x7d")
    let code := "import a from './__sheetpack_styles-cf290c7a.css' with \x7b type: 'css' \x7d;\n" ++
      "import * as n from './__sheetpack_styles-cf290c7a.css' with \x7b type: 'css' \x7d;\n" ++
      "import('./__sheetpack_styles-cf290c7a.css', \x7b with: \x7b type: 'css' \x7d \x7d);\n"
    ∃ u packed, ofCode store .exportedModules .withClause code = .ok (some u) ∧
      u.artifact = some packed ∧
      packed.source = source [.constructed "a" ".a\x7b\x7d",
        .renamed "a" "__namespace_import_n__", .renamed "a" "__dynamic_import_2__"] ∧
      Serves store u.plan (sheetExports store u.plan) := by
  intro store code
  have ha : Digest.shortHashText ".a\x7b\x7d" = "cf290c7a" := by decide +kernel
  have hstore : store = (AssetStore.empty true).fill
      ⟨⟨"/a.css"⟩, "cf290c7a", Asset.nameOf true "cf290c7a", ".a\x7b\x7d"⟩ := by
    simp only [store, Asset.ofContent, ha]
  have hscan : Plan.scan store code =
      [⟨.static (some "a") none, "./__sheetpack_styles-cf290c7a.css", ⟨0, 71⟩⟩,
        ⟨.static none (some "n"), "./__sheetpack_styles-cf290c7a.css", ⟨72, 148⟩⟩,
        ⟨.dynamic none false, "./__sheetpack_styles-cf290c7a.css", ⟨149, 219⟩⟩] := by
    rw [hstore, Plan.scan, Script.importNodes, Script.tokenize, String.toList_append,
      String.toList_append, String.toList_ofList, String.toList_ofList, String.toList_ofList]
    decide +kernel
  obtain ⟨herror, -, hnone, hpacked⟩ := exports_ofCode store .withClause code
  rw [hscan] at herror hnone hpacked
  obtain ⟨u, hu⟩ : ∃ u, ofCode store .exportedModules .withClause code = .ok (some u) := by
    cases h : ofCode store .exportedModules .withClause code with
    | error err => exact absurd (by decide) (herror.mp ⟨err, h⟩)
    | ok packed =>
        cases packed with
        | none => cases hnone.mp h
        | some u => exact ⟨u, rfl⟩
  obtain ⟨hplan, hartifact, ⟨front, body, -, -, -, hsource⟩, hserves⟩ := hpacked u hu
  obtain ⟨packed, hmade⟩ := Option.isSome_iff_exists.mp
    (hartifact.mpr ⟨_, List.mem_cons_self, by decide⟩)
  refine ⟨u, packed, hu, hmade, ?_, hplan ▸ hserves⟩
  rw [(hsource packed hmade).1, hstore]
  exact congrArg source (by decide +kernel)

/-- A call inside the options of another one: both are in the plan, and packing fails. -/
theorem exports_ofCode_nested :
    let store := (AssetStore.empty true).fill (.ofContent true ⟨"/a.css"⟩ ".a\x7b\x7d")
    let code := "import('./__sheetpack_styles-cf290c7a.css', \x7b with: \x7b type: 'css' \x7d, " ++
      "also: import('./__sheetpack_styles-cf290c7a.css', \x7b with: \x7b type: 'css' \x7d \x7d)" ++
      " \x7d);\n"
    (∃ e ∈ Plan.scan store code, e.binding ≠ .static none none) ∧
      ofCode store .exportedModules .withClause code = .error (.overlapping ⟨75, 145⟩) := by
  intro store code
  have ha : Digest.shortHashText ".a\x7b\x7d" = "cf290c7a" := by decide +kernel
  have hstore : store = (AssetStore.empty true).fill
      ⟨⟨"/a.css"⟩, "cf290c7a", Asset.nameOf true "cf290c7a", ".a\x7b\x7d"⟩ := by
    simp only [store, Asset.ofContent, ha]
  have hscan : Plan.scan store code =
      [⟨.dynamic none false, "./__sheetpack_styles-cf290c7a.css", ⟨0, 148⟩⟩,
        ⟨.dynamic none false, "./__sheetpack_styles-cf290c7a.css", ⟨75, 145⟩⟩] := by
    rw [hstore, Plan.scan, Script.importNodes, Script.tokenize, String.toList_append,
      String.toList_append, String.toList_ofList, String.toList_ofList, String.toList_ofList]
    decide +kernel
  refine ⟨⟨_, by rw [hscan]; exact List.mem_cons_self, by decide⟩, ?_⟩
  have hfirst : Edits.firstError? 0 code.toList 0 (Edits.ordered
      (edits store (Plan.scan store code)).edits) = some (.overlapping ⟨75, 145⟩) := by
    rw [edits_edits, hscan, Edits.ordered, List.mergeSort_of_pairwise (by decide),
      String.toList_append, String.toList_append, String.toList_ofList, String.toList_ofList,
      String.toList_ofList]
    decide +kernel
  have happly := Edits.applyText_eq_error_iff.mpr (Edits.apply_eq_error_iff.mpr hfirst)
  have hplan : (Plan.scan store code).isEmpty = false := by
    rw [hscan]
    rfl
  simp only [ofCode, happly, hplan]
  rfl

end StyleBundler.PackedUnit
