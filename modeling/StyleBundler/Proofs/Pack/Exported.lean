import StyleBundler.Pack.Unit
import StyleBundler.Proofs.Edit
import StyleBundler.Proofs.Pack.Plan

/-!
Sheets of a generated module. An export denotes the sheet that it constructs, or the one
that it is another name of. A local name is exported once, for the first entry that
reads its sheet by it (`denoted?_sheetExports`); a later entry with that local name gets
the same sheet, which is its own only if both refer to one asset.
-/

namespace StyleBundler.Exported

/-- The content of the sheet that the module constructs under a name. -/
def constructed? (exported : List SheetExport) (name : String) : Option String :=
  exported.findSome? fun x =>
    match x with
    | .constructed other content => if other = name then some content else none
    | .renamed _ _ => none

/-- The content of the sheet that one of the exports stands for. -/
def SheetExport.sheet? (exported : List SheetExport) : SheetExport → Option String
  | .constructed _ content => some content
  | .renamed first _ => constructed? exported first

/-- The content of the sheet that the module exports under a name. -/
def denoted? (exported : List SheetExport) (name : String) : Option String :=
  (exported.find? (·.name = name)).bind (SheetExport.sheet? exported)

/-- The content that a reference stands for in the module. -/
def contentOf (store : AssetStore) (reference : String) : String :=
  ((store.referenced? reference).map (·.content)).getD ""

theorem constructed?_append {exported : List SheetExport} {name content : String}
    (h : constructed? exported name = some content) (more : List SheetExport) :
    constructed? (exported ++ more) name = some content := by
  rw [constructed?] at h
  rw [constructed?, List.findSome?_append, h, Option.some_or]

theorem constructed?_eq_none {exported : List SheetExport} {name : String}
    (h : name ∉ exported.map SheetExport.name) : constructed? exported name = none := by
  rw [constructed?, List.findSome?_eq_none_iff]
  intro x hx
  cases x with
  | constructed other content =>
      have hne : other ≠ name := by
        rintro rfl
        exact h (List.mem_map_of_mem hx)
      exact if_neg hne
  | renamed first other => rfl

/-- Behind exports under other names, an export denotes its own sheet. -/
theorem denoted?_append_cons {exported more : List SheetExport} {x : SheetExport}
    (h : x.name ∉ exported.map SheetExport.name) :
    denoted? (exported ++ x :: more) x.name = x.sheet? (exported ++ x :: more) := by
  have hfind : (exported ++ x :: more).find? (·.name = x.name) = some x := by
    rw [List.find?_append, List.find?_eq_none.mpr, Option.none_or]
    · simp
    · intro y hy hname
      exact h (of_decide_eq_true hname ▸ List.mem_map_of_mem hy)
  rw [denoted?, hfind, Option.bind_some]

/-- What the exports are made with: `first` holds the sheets that are constructed, and
`taken` the names that are exported. -/
structure Tracks (store : AssetStore) (exported : List SheetExport)
    (first : List (String × String)) (taken : List String) : Prop where
  constructed : ∀ {reference name : String}, first.lookup reference = some name →
    constructed? exported name = some (contentOf store reference)
  names : ∀ name : String, name ∈ taken ↔ name ∈ exported.map SheetExport.name

theorem Tracks.renamed {store : AssetStore} {exported : List SheetExport}
    {first : List (String × String)} {taken : List String}
    (h : Tracks store exported first taken) (sheet name : String) :
    Tracks store (exported ++ [.renamed sheet name]) first (name :: taken) where
  constructed hlookup := constructed?_append (h.constructed hlookup) _
  names other := by
    simp [h.names other, SheetExport.name, or_comm]

theorem Tracks.constructs {store : AssetStore} {exported : List SheetExport}
    {first : List (String × String)} {taken : List String}
    (h : Tracks store exported first taken) {name : String} (hname : name ∉ taken)
    (reference : String) :
    Tracks store (exported ++ [.constructed name (contentOf store reference)])
      ((reference, name) :: first) (name :: taken) where
  constructed := by
    intro other sheet hlookup
    rw [List.lookup_cons] at hlookup
    split at hlookup
    · next heq =>
        cases hlookup
        rw [beq_iff_eq] at heq
        subst heq
        have hnone := constructed?_eq_none (mt (h.names name).mpr hname)
        rw [constructed?] at hnone ⊢
        rw [List.findSome?_append, hnone, Option.none_or]
        simp
    · exact constructed?_append (h.constructed hlookup) _
  names other := by
    simp [h.names other, SheetExport.name, or_comm]

/-- A local name is exported for the first entry that reads its sheet by it. -/
theorem denoted?_exportsFrom {store : AssetStore} {exported : List SheetExport}
    {first : List (String × String)} {taken : List String}
    (h : Tracks store exported first taken) {entries : List (String × PlannedImport)}
    {name : String} {e : PlannedImport} (he : entries.lookup name = some e)
    (hname : name ∉ taken) :
    denoted? (exported ++ exportsFrom store first taken entries) name =
      some (contentOf store e.reference) := by
  induction entries generalizing exported first taken with
  | nil => cases he
  | cons entry entries ih =>
      obtain ⟨other, d⟩ := entry
      rw [List.lookup_cons] at he
      by_cases htaken : other ∈ taken
      · have hne : name ≠ other := by
          rintro rfl
          exact hname htaken
        rw [beq_eq_false_iff_ne.mpr hne] at he
        rw [exportsFrom, if_pos (by simpa using htaken)]
        exact ih h he hname
      rw [exportsFrom, if_neg (by simpa using htaken)]
      have hfresh : other ∉ exported.map SheetExport.name := mt (h.names other).mpr htaken
      by_cases heq : name = other
      · subst heq
        rw [beq_self_eq_true] at he
        cases he
        cases hfirst : first.lookup e.reference with
        | some sheet =>
            have hsheet := constructed?_append (h.constructed hfirst)
              (.renamed sheet name :: exportsFrom store first (name :: taken) entries)
            exact (denoted?_append_cons (x := .renamed sheet name) hfresh).trans hsheet
        | none =>
            exact denoted?_append_cons
              (x := .constructed name (contentOf store e.reference)) hfresh
      · rw [beq_eq_false_iff_ne.mpr heq] at he
        have hname' : name ∉ other :: taken := by simp [heq, hname]
        cases hfirst : first.lookup d.reference with
        | some sheet =>
            have := ih (h.renamed sheet other) he hname'
            rwa [List.append_assoc] at this
        | none =>
            have := ih (h.constructs htaken d.reference) he hname'
            rwa [List.append_assoc] at this

theorem denoted?_sheetExports {store : AssetStore} {p : Plan} {name : String}
    {e : PlannedImport} (he : (readers 0 p).lookup name = some e) :
    denoted? (sheetExports store p) name = some (contentOf store e.reference) := by
  have htracks : Tracks store [] [] [] := ⟨fun h => (by cases h), fun _ => by simp⟩
  simpa [sheetExports] using denoted?_exportsFrom htracks he List.not_mem_nil

/-- The entry at a place of the plan reads its sheet by a local name. -/
def ReadBy (p : Plan) (place : Nat) (e : PlannedImport) (name : String) : Prop :=
  p[place]? = some e ∧ localName? place e = some name

theorem mem_readers_iff {start : Nat} {p : Plan} {name : String} {e : PlannedImport} :
    (name, e) ∈ readers start p ↔
      ∃ place, p[place]? = some e ∧ localName? (start + place) e = some name := by
  induction p generalizing start with
  | nil => simp [readers]
  | cons d p ih =>
      rw [readers, List.mem_append, ih]
      constructor
      · rintro (h | ⟨place, hplace, hname⟩)
        · obtain ⟨other, hother, heq⟩ := Option.map_eq_some_iff.mp (Option.mem_toList.mp h)
          cases heq
          exact ⟨0, rfl, hother⟩
        · exact ⟨place + 1, hplace, by rwa [Nat.add_right_comm] at hname⟩
      · rintro ⟨place, hplace, hname⟩
        cases place with
        | zero =>
            cases hplace
            exact .inl (Option.mem_toList.mpr (Option.map_eq_some_iff.mpr ⟨name, hname, rfl⟩))
        | succ place =>
            exact .inr ⟨place, hplace, by rwa [Nat.add_right_comm]⟩

theorem ReadBy.mem_readers {p : Plan} {place : Nat} {e : PlannedImport} {name : String}
    (h : ReadBy p place e name) : (name, e) ∈ readers 0 p :=
  mem_readers_iff.mpr ⟨place, h.1, by rw [Nat.zero_add]; exact h.2⟩

theorem exists_readBy {p : Plan} {e : PlannedImport} {name : String}
    (h : (name, e) ∈ readers 0 p) : ∃ place, ReadBy p place e name := by
  obtain ⟨place, hplace, hname⟩ := mem_readers_iff.mp h
  exact ⟨place, hplace, by rwa [Nat.zero_add] at hname⟩

theorem ReadBy.exists_first {p : Plan} {place : Nat} {e : PlannedImport} {name : String}
    (h : ReadBy p place e name) : ∃ d, (readers 0 p).lookup name = some d := by
  cases hfirst : (readers 0 p).lookup name with
  | some d => exact ⟨d, rfl⟩
  | none =>
      have := List.lookup_eq_none_iff.mp hfirst _ h.mem_readers
      simp at this

theorem mem_readers_of_lookup {p : Plan} {name : String} {d : PlannedImport}
    (h : (readers 0 p).lookup name = some d) : (name, d) ∈ readers 0 p := by
  obtain ⟨front, back, heq, -⟩ := List.lookup_eq_some_iff.mp h
  simp [heq]

theorem mem_names_of_denoted? {exported : List SheetExport} {name content : String}
    (h : denoted? exported name = some content) : name ∈ exported.map SheetExport.name := by
  obtain ⟨x, hx, -⟩ := Option.bind_eq_some_iff.mp h
  have hname : x.name = name := by simpa using List.find?_some hx
  exact hname ▸ List.mem_map_of_mem (List.mem_of_find?_eq_some hx)

theorem edits_replaceFrom (s : Edits) (place : Nat) (p : Plan) :
    replaceFrom s place p =
      { s with edits := s.edits ++
          (p.zipIdx place).map fun x => ⟨x.1.span, replacement x.2 x.1⟩ } := by
  induction p generalizing s place with
  | nil => simp [replaceFrom]
  | cons e p ih =>
      rw [replaceFrom, ih]
      simp [Edits.overwrite]

theorem edits_edits (store : AssetStore) (p : Plan) :
    (edits store p).edits = p.zipIdx.map fun x => ⟨x.1.span, replacement x.2 x.1⟩ := by
  simp only [edits]
  split
  · simp [edits_replaceFrom, Edits.empty]
  · split <;> simp [edits_replaceFrom, Edits.prepend, Edits.empty]

/-- The unit imports the names that the generated module exports, and builds its
namespace objects from them. -/
theorem edits_front {store : AssetStore} {p : Plan} {packed : Artifact}
    (h : artifact? store p = some packed) :
    String.join (edits store p).front =
      loadStatement ((sheetExports store p).map SheetExport.name) packed.name ++
        namespaceObjects p := by
  simp only [edits, h]
  split
  · next hempty =>
      rw [String.isEmpty_iff] at hempty
      simp [edits_replaceFrom, Edits.prepend, Edits.empty, hempty]
  · simp [edits_replaceFrom, Edits.prepend, Edits.empty]

theorem eq_ofSource_of_artifact? {store : AssetStore} {p : Plan} {packed : Artifact}
    (h : artifact? store p = some packed) :
    packed = .ofSource (source (sheetExports store p)) PackMode.exportedModules.extension := by
  simp only [artifact?] at h
  split at h
  · cases h
  · cases h
    rfl

theorem source_of_artifact? {store : AssetStore} {p : Plan} {packed : Artifact}
    (h : artifact? store p = some packed) :
    packed.source = source (sheetExports store p) :=
  congrArg Artifact.source (eq_ofSource_of_artifact? h)

theorem mem_edits {store : AssetStore} {p : Plan} {place : Nat} {e : PlannedImport}
    (h : p[place]? = some e) : ⟨e.span, replacement place e⟩ ∈ (edits store p).edits := by
  rw [edits_edits, List.mem_map]
  exact ⟨(e, place), List.mem_zipIdx_iff_getElem?.mpr h, rfl⟩

/-- Two references stand for one content if and only if they spell one asset. -/
theorem contentOf_eq_iff {store : AssetStore} (hs : store.Reachable) {d e : PlannedImport}
    {a b : Asset} (ha : store.referenced? d.reference = some a)
    (hb : store.referenced? e.reference = some b) :
    contentOf store d.reference = b.content ↔ d.sheetName = e.sheetName := by
  simp only [contentOf, ha, Option.map_some, Option.getD_some]
  constructor
  · intro hcontent
    calc d.sheetName = a.name := hs.nameIn_eq ha
      _ = Asset.nameOf store.staging (Digest.shortHashText a.content) :=
          hs.name_eq (AssetStore.mem_assets_of_referenced ha)
      _ = Asset.nameOf store.staging (Digest.shortHashText b.content) := by rw [hcontent]
      _ = b.name := (hs.name_eq (AssetStore.mem_assets_of_referenced hb)).symm
      _ = e.sheetName := (hs.nameIn_eq hb).symm
  · intro hname
    have hsame : store.referenced? d.reference = store.referenced? e.reference :=
      congrArg (fun name => store.index.lookup name) hname
    rw [ha, hb, Option.some.injEq] at hsame
    rw [hsame]

end StyleBundler.Exported

namespace StyleBundler.PackedUnit

open Exported

theorem of_ofCode_exported {store : AssetStore} {keyword : Script.AttributeKeyword}
    {code : String} {u : PackedUnit}
    (h : ofCode store .exportedModules keyword code = .ok (some u)) :
    u.plan = Plan.scan store code ∧ u.artifact = artifact? store u.plan ∧
      (edits store u.plan).applyText code = .ok u.code := by
  simp only [ofCode] at h
  split at h
  · cases h
  · cases hcode : (edits store (Plan.scan store code)).applyText code with
    | error cause => simp [hcode, Except.map] at h
    | ok packed =>
        simp only [hcode, Except.map, Except.ok.injEq, Option.some.injEq] at h
        exact h ▸ ⟨rfl, rfl, hcode⟩

theorem exists_ofCode_exported {store : AssetStore} (keyword : Script.AttributeKeyword)
    {code : String} {p : Plan} (hscan : Plan.scan store code = p) (hplan : p ≠ [])
    (hexports : sheetExports store p ≠ [])
    (hsorted : (p.zipIdx.map fun x => Edit.mk x.1.span (replacement x.2 x.1)).Pairwise
      fun a b => Edit.precedes a b = true)
    (hfit : Edits.firstError? 0 code.toList 0
      (p.zipIdx.map fun x => ⟨x.1.span, replacement x.2 x.1⟩) = none) :
    ∃ u packed, ofCode store .exportedModules keyword code = .ok (some u) ∧ u.plan = p ∧
      u.artifact = some packed := by
  rw [← edits_edits store] at hsorted hfit
  obtain ⟨packed, hpacked⟩ := Edits.exists_applyText hsorted hfit
  have hmade : artifact? store p =
      some (.ofSource (source (sheetExports store p)) PackMode.exportedModules.extension) := by
    simp only [artifact?, List.isEmpty_iff, hexports, if_false]
  simp only [ofCode, hscan, List.isEmpty_iff, hplan, if_false, hpacked]
  exact ⟨_, _, rfl, rfl, hmade⟩

/-- The module that packing makes, and what the unit reads from it: an entry gets the
sheet of its own asset if and only if the first entry with its local name refers to that
asset too. All entries do if and only if no local name stands for two assets. -/
theorem denoted_exported {store : AssetStore} (hs : store.Reachable)
    {keyword : Script.AttributeKeyword} {code : String} {u : PackedUnit} {packed : Artifact}
    (h : ofCode store .exportedModules keyword code = .ok (some u))
    (hpacked : u.artifact = some packed) :
    let exported := sheetExports store u.plan
    packed.source = source exported ∧
      (edits store u.plan).applyText code = .ok u.code ∧
      String.join (edits store u.plan).front =
        loadStatement (exported.map SheetExport.name) packed.name ++ namespaceObjects u.plan ∧
      (∀ place e name, ReadBy u.plan place e name →
        ⟨e.span, replacement place e⟩ ∈ (edits store u.plan).edits ∧
        name ∈ exported.map SheetExport.name ∧
        ∃ own, store.referenced? e.reference = some own ∧
          ∃ d, (readers 0 u.plan).lookup name = some d ∧
            (denoted? exported name = some own.content ↔ d.sheetName = e.sheetName)) ∧
      ((∀ place e name, ReadBy u.plan place e name →
          ∃ own, store.referenced? e.reference = some own ∧
            denoted? exported name = some own.content) ↔
        ∀ place e place' e' name, ReadBy u.plan place e name → ReadBy u.plan place' e' name →
          e.sheetName = e'.sheetName) := by
  intro exported
  obtain ⟨hplan, hartifact, happly⟩ := of_ofCode_exported h
  rw [hartifact] at hpacked
  have hfound : ∀ e ∈ u.plan, ∃ own, store.referenced? e.reference = some own :=
    fun e he => Plan.exists_referenced (hplan ▸ he)
  have hown : ∀ {e d : PlannedImport} {name : String} {own : Asset}, d ∈ u.plan →
      store.referenced? e.reference = some own → (readers 0 u.plan).lookup name = some d →
      (denoted? exported name = some own.content ↔ d.sheetName = e.sheetName) := by
    intro e d name own hd howned hfirst
    obtain ⟨other, hother⟩ := hfound d hd
    rw [denoted?_sheetExports hfirst, Option.some.injEq]
    exact contentOf_eq_iff hs hother howned
  refine ⟨source_of_artifact? hpacked, happly, edits_front hpacked, ?_, ?_, ?_⟩
  · intro place e name hread
    obtain ⟨own, howned⟩ := hfound e (List.mem_of_getElem? hread.1)
    obtain ⟨d, hfirst⟩ := hread.exists_first
    obtain ⟨_, hdread⟩ := exists_readBy (mem_readers_of_lookup hfirst)
    exact ⟨mem_edits hread.1, mem_names_of_denoted? (denoted?_sheetExports hfirst), own, howned,
      d, hfirst, hown (List.mem_of_getElem? hdread.1) howned hfirst⟩
  · intro hall place e place' e' name hread hread'
    obtain ⟨own, howned, hdenoted⟩ := hall place e name hread
    obtain ⟨own', howned', hdenoted'⟩ := hall place' e' name hread'
    have hcontent : contentOf store e.reference = own'.content := by
      simp only [contentOf, howned, Option.map_some, Option.getD_some]
      exact Option.some.inj (hdenoted.symm.trans hdenoted')
    exact (contentOf_eq_iff hs howned howned').mp hcontent
  · intro hagree place e name hread
    obtain ⟨own, howned⟩ := hfound e (List.mem_of_getElem? hread.1)
    obtain ⟨d, hfirst⟩ := hread.exists_first
    obtain ⟨place', hdread⟩ := exists_readBy (mem_readers_of_lookup hfirst)
    exact ⟨own, howned, (hown (List.mem_of_getElem? hdread.1) howned hfirst).mpr
      (hagree place' d place e name hdread hread)⟩

/-- A unit that reads two sheets under three local names. -/
theorem denoted_exported_apart :
    let store := ((AssetStore.empty true).fill (.ofContent true ⟨"/a.css"⟩ ".a\x7b\x7d")).fill
      (.ofContent true ⟨"/b.css"⟩ ".b\x7b\x7d")
    let code := "import a from './__sheetpack_styles-cf290c7a.css' with \x7b type: 'css' \x7d;\n" ++
      "import * as n from './__sheetpack_styles-48672fc3.css' with \x7b type: 'css' \x7d;\n" ++
      "import('./__sheetpack_styles-cf290c7a.css', \x7b with: \x7b type: 'css' \x7d \x7d);\n"
    ∃ u packed, ofCode store .exportedModules .withClause code = .ok (some u) ∧
      u.artifact = some packed ∧ u.plan.length = 3 ∧
      ∀ place e name, ReadBy u.plan place e name →
        ∃ own, store.referenced? e.reference = some own ∧
          denoted? (sheetExports store u.plan) name = some own.content := by
  intro store code
  have hs : store.Reachable := .fill _ _ (.fill _ _ (.empty true))
  have ha : Digest.shortHashText ".a\x7b\x7d" = "cf290c7a" := by decide +kernel
  have hb : Digest.shortHashText ".b\x7b\x7d" = "48672fc3" := by decide +kernel
  have hstore : store = ((AssetStore.empty true).fill
        ⟨⟨"/a.css"⟩, "cf290c7a", Asset.nameOf true "cf290c7a", ".a\x7b\x7d"⟩).fill
      ⟨⟨"/b.css"⟩, "48672fc3", Asset.nameOf true "48672fc3", ".b\x7b\x7d"⟩ := by
    simp only [store, Asset.ofContent, ha, hb]
  have hscan : Plan.scan store code =
      [⟨.static (some "a") none, "./__sheetpack_styles-cf290c7a.css", ⟨0, 71⟩⟩,
        ⟨.static none (some "n"), "./__sheetpack_styles-48672fc3.css", ⟨72, 148⟩⟩,
        ⟨.dynamic none false, "./__sheetpack_styles-cf290c7a.css", ⟨149, 219⟩⟩] := by
    -- the signs of the literals are at hand; those of the whole text would have to be decoded
    rw [hstore, Plan.scan, Script.importNodes, Script.tokenize, String.toList_append,
      String.toList_append, String.toList_ofList, String.toList_ofList, String.toList_ofList]
    decide +kernel
  obtain ⟨u, packed, hu, huplan, hpacked⟩ := by
    refine exists_ofCode_exported .withClause hscan (by simp) ?_ (by decide +kernel) ?_
    · rw [hstore]
      decide +kernel
    · rw [String.toList_append, String.toList_append, String.toList_ofList, String.toList_ofList,
        String.toList_ofList]
      decide +kernel
  obtain ⟨-, -, -, -, hall⟩ := denoted_exported hs hu hpacked
  refine ⟨u, packed, hu, hpacked, by rw [huplan]; rfl, hall.mpr ?_⟩
  intro place e place' e' name hread hread'
  have hnames : ∀ x ∈ readers 0 u.plan, ∀ y ∈ readers 0 u.plan, x.1 = y.1 →
      x.2.sheetName = y.2.sheetName := by
    rw [huplan]
    decide +kernel
  exact hnames _ hread.mem_readers _ hread'.mem_readers rfl

/-- Two blocks that call their variables alike: the second one gets the sheet of the
first. -/
theorem denoted_other_sheet :
    let store := ((AssetStore.empty true).fill (.ofContent true ⟨"/0.css"⟩ ".a\x7b\x7d")).fill
      (.ofContent true ⟨"/1.css"⟩ ".b\x7b\x7d")
    let code := "\x7b const s = await import('./__sheetpack_styles-cf290c7a.css', " ++
      "\x7b with: \x7b type: 'css' \x7d \x7d); \x7d\n" ++
      "\x7b const s = await import('./__sheetpack_styles-48672fc3.css', " ++
      "\x7b with: \x7b type: 'css' \x7d \x7d); \x7d\n"
    ∃ u packed, ofCode store .exportedModules .withClause code = .ok (some u) ∧
      u.artifact = some packed ∧
      ∃ place e name, ReadBy u.plan place e name ∧
        (store.referenced? e.reference).map (·.content) = some ".b\x7b\x7d" ∧
        denoted? (sheetExports store u.plan) name = some ".a\x7b\x7d" := by
  intro store code
  have ha : Digest.shortHashText ".a\x7b\x7d" = "cf290c7a" := by decide +kernel
  have hb : Digest.shortHashText ".b\x7b\x7d" = "48672fc3" := by decide +kernel
  have hstore : store = ((AssetStore.empty true).fill
        ⟨⟨"/0.css"⟩, "cf290c7a", Asset.nameOf true "cf290c7a", ".a\x7b\x7d"⟩).fill
      ⟨⟨"/1.css"⟩, "48672fc3", Asset.nameOf true "48672fc3", ".b\x7b\x7d"⟩ := by
    simp only [store, Asset.ofContent, ha, hb]
  have hscan : Plan.scan store code =
      [⟨.dynamic (some "s") true, "./__sheetpack_styles-cf290c7a.css", ⟨12, 88⟩⟩,
        ⟨.dynamic (some "s") true, "./__sheetpack_styles-48672fc3.css", ⟨104, 180⟩⟩] := by
    rw [hstore, Plan.scan, Script.importNodes, Script.tokenize, String.toList_append,
      String.toList_append, String.toList_append, String.toList_ofList, String.toList_ofList,
      String.toList_ofList]
    decide +kernel
  obtain ⟨u, packed, hu, huplan, hpacked⟩ := by
    refine exists_ofCode_exported .withClause hscan (by simp) ?_ (by decide +kernel) ?_
    · rw [hstore]
      decide +kernel
    · rw [String.toList_append, String.toList_append, String.toList_append, String.toList_ofList,
        String.toList_ofList, String.toList_ofList]
      decide +kernel
  refine ⟨u, packed, hu, hpacked, 1, ⟨.dynamic (some "s") true,
    "./__sheetpack_styles-48672fc3.css", ⟨104, 180⟩⟩, "__dynamic_import_s__", ?_, ?_, ?_⟩
  · rw [huplan]
    exact ⟨rfl, by decide⟩
  · rw [hstore]
    decide +kernel
  · rw [huplan, hstore]
    decide +kernel

end StyleBundler.PackedUnit
