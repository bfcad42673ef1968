import Mathlib.Data.List.Basic
import StyleBundler.Proofs.Pack.Combined

/-!
Sheets of a combined stylesheet that hold any texts at all. An entry finds its sheet behind
self-contained ones, whatever its own content is, and its rules are its own if that content
ends its block. No entry is proof against a sheet in front of it.
-/

namespace StyleBundler

namespace AssetStore

/-- The content that is filed under a name. -/
def contentOf (s : AssetStore) (name : String) : String :=
  ((s.index.lookup name).map (·.content)).getD ""

theorem contentOf_sheetName {s : AssetStore} {e : PlannedImport} {a : Asset}
    (h : s.referenced? e.reference = some a) : s.contentOf e.sheetName = a.content := by
  have hname : s.index.lookup e.sheetName = some a := h
  rw [contentOf, hname]
  rfl

theorem Reachable.brace_notMem {s : AssetStore} (hs : s.Reachable) {e : PlannedImport} {a : Asset}
    (h : s.referenced? e.reference = some a) : '}' ∉ e.sheetName.toList := by
  have hname : e.sheetName = a.name := hs.nameIn_eq h
  intro hc
  have hchar := hs.isNameChar (mem_assets_of_referenced h) '}' (hname ▸ hc)
  revert hchar
  decide

end AssetStore

/-- What a page that has extracted nothing yet finds in an artifact under a name. -/
def Artifact.lookup? (x : Artifact) (name : String) : Option (Nat × List Rule) :=
  (Sheet.Memo.empty.lookup (.ofSource x.name x.source) name).1

theorem Artifact.lookup?_eq (x : Artifact) (name : String) :
    x.lookup? name = (Sheet.extract? (Sheet.parse x.source) name).map (0, ·) := by
  simp only [lookup?, Sheet.Memo.lookup, Sheet.Memo.empty, List.findIdx?_nil,
    Sheet.Combined.ofSource]
  cases Sheet.extract? (Sheet.parse x.source) name <;> rfl

namespace Combined

/-- The sheets of a plan with other contents, given by the name of the sheet. -/
def filled (contents : String → String) (p : Plan) : List (String × String) :=
  p.unique.map fun e => (e.sheetName, contents e.sheetName)

/-- The combined stylesheet of a plan whose sheets hold these contents. -/
def artifactOf (contents : String → String) (p : Plan) : Artifact :=
  .ofSource (Sheet.combine (filled contents p)) PackMode.combined.extension

/-- The names of the sheets that are packed in front of the sheet of an entry. -/
def namesBefore (e : PlannedImport) (p : Plan) : List String :=
  (p.unique.map (·.sheetName)).takeWhile (· != e.sheetName)

theorem artifact_eq {store : AssetStore} {p : Plan}
    (h : ∀ e ∈ p, ∃ a, store.referenced? e.reference = some a) :
    artifact store p = artifactOf store.contentOf p := by
  have hsheets : sheets store p = filled store.contentOf p := by
    rw [sheets, filled, ← List.filterMap_eq_map]
    refine List.filterMap_congr fun e he => ?_
    obtain ⟨a, ha⟩ := h e (Plan.mem_of_mem_unique he)
    simp [ha, AssetStore.contentOf_sheetName ha]
  rw [artifact, source_eq, hsheets, artifactOf]

theorem before_filled (contents : String → String) (e : PlannedImport) (p : Plan) :
    Sheet.before e.sheetName (filled contents p) =
      (namesBefore e p).map fun name => (name, contents name) := by
  rw [Sheet.before, filled, namesBefore, List.takeWhile_map, List.takeWhile_map, List.map_map]
  rfl

theorem mem_filled {contents : String → String} {e : PlannedImport} {p : Plan} (he : e ∈ p) :
    (e.sheetName, contents e.sheetName) ∈ filled contents p := by
  obtain ⟨d, hd, hde⟩ := Plan.exists_mem_unique he
  refine List.mem_map.mpr ⟨d, hd, ?_⟩
  simp only [PlannedImport.sheetName, hde]

section Lookup

variable {store : AssetStore} {p : Plan} {e : PlannedImport} {contents : String → String}

theorem isPlainName_of_mem_filled (contents : String → String) (hs : store.Reachable)
    (hp : ∀ e ∈ p, ∃ a, store.referenced? e.reference = some a) :
    ∀ s ∈ filled contents p, Sheet.IsPlainName s.1.toList ∧ '}' ∉ s.1.toList := by
  intro s h
  obtain ⟨e, he, rfl⟩ := List.mem_map.mp h
  obtain ⟨a, ha⟩ := hp e (Plan.mem_of_mem_unique he)
  exact ⟨isPlainName_sheetName hs ha, hs.brace_notMem ha⟩

/-- Behind self-contained sheets an entry finds its sheet, whatever that one holds and
whatever stands behind it. -/
theorem exists_lookup? (hs : store.Reachable)
    (hp : ∀ e ∈ p, ∃ a, store.referenced? e.reference = some a) (he : e ∈ p)
    (h : ∀ name ∈ namesBefore e p, Sheet.SelfContained (contents name).toList) :
    ∃ rules, (artifactOf contents p).lookup? e.sheetName = some (0, rules) ∧
      (Sheet.EndsBlock (contents e.sheetName).toList →
        rules = Sheet.rulesFrom [] (Sheet.ownBlock (contents e.sheetName).toList)) := by
  have hbefore : ∀ s ∈ Sheet.before e.sheetName (filled contents p),
      Sheet.SelfContained s.2.toList := by
    rw [before_filled]
    simpa using h
  obtain ⟨rules, hfound, hown⟩ := Sheet.exists_extract?
    (fun s hmem => (isPlainName_of_mem_filled contents hs hp s hmem).1) (mem_filled he)
    (by simp +contextual [filled]) hbefore
  refine ⟨rules, ?_, hown⟩
  rw [Artifact.lookup?_eq, artifactOf, Artifact.ofSource, hfound]
  rfl

theorem openToEnd_filled (hs : store.Reachable)
    (hp : ∀ e ∈ p, ∃ a, store.referenced? e.reference = some a)
    (h : ∀ d ∈ p, Sheet.OnlyOpens (contents d.sheetName).toList) :
    Sheet.OpenToEnd (filled contents p) := by
  refine Sheet.openToEnd_of_onlyOpens (isPlainName_of_mem_filled contents hs hp) fun s hmem => ?_
  obtain ⟨d, hd, rfl⟩ := List.mem_map.mp hmem
  exact h d (Plan.mem_of_mem_unique hd)

/-- Where blocks that are left open stay open, an entry finds its sheet behind
self-contained ones and behind no others. -/
theorem isSome_lookup?_iff (hs : store.Reachable)
    (hp : ∀ e ∈ p, ∃ a, store.referenced? e.reference = some a) (he : e ∈ p)
    (h : Sheet.OpenToEnd (filled contents p)) :
    ((artifactOf contents p).lookup? e.sheetName).isSome ↔
      ∀ name ∈ namesBefore e p, Sheet.SelfContained (contents name).toList := by
  have hplain := fun s hmem => (isPlainName_of_mem_filled contents hs hp s hmem).1
  rw [Artifact.lookup?_eq, Option.isSome_map, artifactOf, Artifact.ofSource,
    Sheet.isSome_extract?_iff hplain h (List.mem_map_of_mem (mem_filled he)), before_filled]
  simp

/-- The first packed sheet can make an entry behind it find any rules. -/
theorem exists_forged (hs : store.Reachable)
    (hp : ∀ e ∈ p, ∃ a, store.referenced? e.reference = some a) (he : e ∈ p)
    (hbefore : namesBefore e p ≠ []) (own : String) {css : String}
    (h : Sheet.SelfContained css.toList) :
    ∃ contents : String → String, contents e.sheetName = own ∧
      (artifactOf contents p).lookup? e.sheetName = some (0, Sheet.parse css) := by
  let contents (name : String) : String :=
    if name = e.sheetName then own else Sheet.forged e.sheetName css
  refine ⟨contents, if_pos rfl, ?_⟩
  have hplain := isPlainName_of_mem_filled contents hs hp
  have hname := (hplain _ (mem_filled he)).1
  rw [Artifact.lookup?_eq, artifactOf, Artifact.ofSource]
  cases hunique : p.unique with
  | nil => simp [namesBefore, hunique] at hbefore
  | cons d ds =>
      have hne : d.sheetName ≠ e.sheetName := by
        intro heq
        simp [namesBefore, hunique, heq] at hbefore
      have hfilled : filled contents p =
          (d.sheetName, Sheet.forged e.sheetName css) ::
            ds.map fun d => (d.sheetName, contents d.sheetName) := by
        simp only [filled, hunique, List.map_cons, contents, if_neg hne]
      have hd := (hplain (d.sheetName, Sheet.forged e.sheetName css) (by simp [hfilled])).1
      rw [hfilled, Sheet.extract?_forged hd hname hne h]
      rfl

end Lookup

end Combined

namespace PackedUnit

/-- The combined stylesheet of a unit, with the contents of the other sheets replaced by any
texts. An entry is found behind self-contained sheets, and with the rules of its own content
if that ends its block. Behind a sheet that leaves its block open it is not found. What is
found stays the same under every replacement only if no sheet is packed in front, and then
it does if the content ends its block. -/
theorem lookup_isolated {store : AssetStore} (hs : store.Reachable)
    {keyword : Script.AttributeKeyword} {code : String} {u : PackedUnit} {packed : Artifact}
    (h : ofCode store .combined keyword code = .ok (some u))
    (hpacked : u.artifact = some packed) :
    packed = Combined.artifactOf store.contentOf u.plan ∧
      ∀ e ∈ u.plan, ∃ a, store.referenced? e.reference = some a ∧
        store.contentOf e.sheetName = a.content ∧
        (∀ contents : String → String, contents e.sheetName = a.content →
          ((∀ name ∈ Combined.namesBefore e u.plan, Sheet.SelfContained (contents name).toList) →
            ∃ rules, (Combined.artifactOf contents u.plan).lookup? e.sheetName = some (0, rules) ∧
              (Sheet.EndsBlock a.content.toList →
                rules = Sheet.parse (String.ofList (Sheet.ownBlock a.content.toList))) ∧
              (Sheet.SelfContained a.content.toList → rules = Sheet.parse a.content)) ∧
          (Sheet.OpenToEnd (Combined.filled contents u.plan) →
            (((Combined.artifactOf contents u.plan).lookup? e.sheetName).isSome ↔
              ∀ name ∈ Combined.namesBefore e u.plan,
                Sheet.SelfContained (contents name).toList))) ∧
        ((∀ contents : String → String, contents e.sheetName = a.content →
            (Combined.artifactOf contents u.plan).lookup? e.sheetName =
              packed.lookup? e.sheetName) →
          Combined.namesBefore e u.plan = []) ∧
        (Combined.namesBefore e u.plan = [] → Sheet.EndsBlock a.content.toList →
          ∀ contents : String → String, contents e.sheetName = a.content →
            (Combined.artifactOf contents u.plan).lookup? e.sheetName =
              packed.lookup? e.sheetName) := by
  obtain ⟨hplan, hartifact⟩ := of_ofCode_combined h
  rw [hartifact, Option.some.injEq] at hpacked
  have hp : ∀ e ∈ u.plan, ∃ a, store.referenced? e.reference = some a :=
    fun e he => Plan.exists_referenced (hplan ▸ he)
  have hown : packed = Combined.artifactOf store.contentOf u.plan := by
    rw [← hpacked, Combined.artifact_eq hp]
  refine ⟨hown, fun e he => ?_⟩
  obtain ⟨a, ha⟩ := hp e he
  refine ⟨a, ha, AssetStore.contentOf_sheetName ha, fun contents hcontent => ⟨fun hbefore => ?_,
    Combined.isSome_lookup?_iff hs hp he⟩, fun hsame => ?_, fun hfirst hend => ?_⟩
  · obtain ⟨rules, hfound, hrules⟩ := Combined.exists_lookup? hs hp he hbefore
    rw [hcontent] at hrules
    refine ⟨rules, hfound, fun hend => ?_, fun hself => ?_⟩
    · rw [hrules hend, Sheet.parse, String.toList_ofList]
    · rw [hrules hself.endsBlock, hself.ownBlock_eq, Sheet.parse]
  · by_contra hbefore
    have hforged : ∀ css : String, Sheet.SelfContained css.toList →
        packed.lookup? e.sheetName = some (0, Sheet.parse css) := by
      intro css hcss
      obtain ⟨contents, hcontent, hfound⟩ := Combined.exists_forged hs hp he hbefore a.content hcss
      rw [← hsame contents hcontent, hfound]
    have hempty := hforged "" (by decide)
    rw [hforged "x;" (by decide)] at hempty
    revert hempty
    decide +kernel
  · intro contents hcontent
    have hfound : ∀ contents : String → String, contents e.sheetName = a.content →
        (Combined.artifactOf contents u.plan).lookup? e.sheetName =
          some (0, Sheet.rulesFrom [] (Sheet.ownBlock a.content.toList)) := by
      intro contents hcontent
      have hfront : ∀ name ∈ Combined.namesBefore e u.plan,
          Sheet.SelfContained (contents name).toList := by
        simp [hfirst]
      obtain ⟨rules, hfound, hrules⟩ := Combined.exists_lookup? hs hp he hfront
      rw [hcontent] at hrules
      rw [hfound, hrules hend]
    rw [hown, hfound contents hcontent, hfound _ (AssetStore.contentOf_sheetName ha)]

theorem exists_ofCode_of_scan {store : AssetStore} (keyword : Script.AttributeKeyword)
    {code : String} {p : Plan} (hscan : Plan.scan store code = p) (hne : p ≠ [])
    (hsorted : (p.map fun e => Edit.mk e.span (Combined.replacement e)).Pairwise
      fun a b => Edit.precedes a b = true)
    (hfit : Edits.firstError? 0 code.toList 0
      (p.map fun e => ⟨e.span, Combined.replacement e⟩) = none) :
    ∃ u packed, ofCode store .combined keyword code = .ok (some u) ∧ u.plan = p ∧
      u.artifact = some packed := by
  subst hscan
  obtain ⟨u, hu⟩ := exists_ofCode_combined keyword hne hsorted hfit
  obtain ⟨hplan, hpacked⟩ := of_ofCode_combined hu
  exact ⟨u, _, hu, hplan, hpacked⟩

/-- A sheet that leaves its block open, packed last, disturbs no other, and whatever takes
its place disturbs none either. -/
theorem lookup_isolated_last :
    let store := ((AssetStore.empty true).fill (.ofContent true ⟨"/a.css"⟩ ".a\x7b\x7d")).fill
      (.ofContent true ⟨"/b.css"⟩ ".b\x7b")
    let code := "import a from './__sheetpack_styles-cf290c7a.css' with \x7b type: 'css' \x7d;\n" ++
      "import b from './__sheetpack_styles-a93d79df.css' with \x7b type: 'css' \x7d;\n"
    ∃ u packed, ofCode store .combined .withClause code = .ok (some u) ∧
      u.artifact = some packed ∧
      u.plan.map (·.sheetName) =
        ["__sheetpack_styles-cf290c7a.css", "__sheetpack_styles-a93d79df.css"] ∧
      (∀ e ∈ u.plan, (packed.lookup? e.sheetName).isSome) ∧
      ∀ text : String,
        (Combined.artifactOf
          (fun name => if name = "__sheetpack_styles-cf290c7a.css" then ".a\x7b\x7d" else text)
          u.plan).lookup? "__sheetpack_styles-cf290c7a.css" =
            some (0, Sheet.parse ".a\x7b\x7d") := by
  intro store code
  have hs : store.Reachable := .fill _ _ (.fill _ _ (.empty true))
  have ha : Digest.shortHashText ".a\x7b\x7d" = "cf290c7a" := by decide +kernel
  have hb : Digest.shortHashText ".b\x7b" = "a93d79df" := by decide +kernel
  have hstore : store = ((AssetStore.empty true).fill
        ⟨⟨"/a.css"⟩, "cf290c7a", Asset.nameOf true "cf290c7a", ".a\x7b\x7d"⟩).fill
      ⟨⟨"/b.css"⟩, "a93d79df", Asset.nameOf true "a93d79df", ".b\x7b"⟩ := by
    simp only [store, Asset.ofContent, ha, hb]
  have hscan : Plan.scan store code =
      [⟨.static (some "a") none, "./__sheetpack_styles-cf290c7a.css", ⟨0, 71⟩⟩,
        ⟨.static (some "b") none, "./__sheetpack_styles-a93d79df.css", ⟨72, 143⟩⟩] := by
    -- the signs of the literals are at hand; those of the whole text would have to be decoded
    rw [hstore, Plan.scan, Script.importNodes, Script.tokenize, String.toList_append,
      String.toList_ofList, String.toList_ofList]
    decide +kernel
  obtain ⟨u, packed, hu, hplan, hpacked⟩ := by
    refine exists_ofCode_of_scan .withClause hscan (by simp) (by decide +kernel) ?_
    rw [String.toList_append, String.toList_ofList, String.toList_ofList]
    decide +kernel
  obtain ⟨hown, hall⟩ := lookup_isolated hs hu hpacked
  refine ⟨u, packed, hu, hpacked, by rw [hplan]; decide +kernel, fun e he => ?_, fun text => ?_⟩
  · have hfront : ∀ e ∈ u.plan, ∀ name ∈ Combined.namesBefore e u.plan,
        Sheet.SelfContained (store.contentOf name).toList := by
      rw [hplan, hstore]
      decide +kernel
    obtain ⟨a, -, hcontent, hfilled, -⟩ := hall e he
    obtain ⟨rules, hfound, -⟩ := (hfilled _ hcontent).1 (hfront e he)
    rw [hown, hfound]
    rfl
  · let e : PlannedImport :=
      ⟨.static (some "a") none, "./__sheetpack_styles-cf290c7a.css", ⟨0, 71⟩⟩
    have hname : e.sheetName = "__sheetpack_styles-cf290c7a.css" := by decide +kernel
    have hfirst : Combined.namesBefore e u.plan = [] := by
      rw [hplan]
      decide +kernel
    have hcontent : store.contentOf e.sheetName = ".a\x7b\x7d" := by
      rw [hstore]
      decide +kernel
    obtain ⟨a, -, hsame, hfilled, -⟩ := hall e (by rw [hplan]; exact List.mem_cons_self)
    rw [hcontent] at hsame
    obtain ⟨rules, hfound, -, hrules⟩ := (hfilled
      (fun name => if name = "__sheetpack_styles-cf290c7a.css" then ".a\x7b\x7d" else text)
      (by rw [hname, if_pos rfl, hsame])).1 (by simp [hfirst])
    rw [hname] at hfound
    rw [hfound, hrules (by rw [← hsame]; decide +kernel), ← hsame]

/-- A sheet that leaves its block open takes the one behind it away. -/
theorem lookup_swallowed :
    let store := ((AssetStore.empty true).fill (.ofContent true ⟨"/a.css"⟩ ".a\x7b")).fill
      (.ofContent true ⟨"/b.css"⟩ ".b\x7b\x7d")
    let code := "import a from './__sheetpack_styles-66127d30.css' with \x7b type: 'css' \x7d;\n" ++
      "import b from './__sheetpack_styles-48672fc3.css' with \x7b type: 'css' \x7d;\n"
    store.Reachable ∧ ∃ u packed, ofCode store .combined .withClause code = .ok (some u) ∧
      u.artifact = some packed ∧
      ∃ e ∈ u.plan, (store.referenced? e.reference).map (·.content) = some ".b\x7b\x7d" ∧
        packed.lookup? e.sheetName = none := by
  intro store code
  have hs : store.Reachable := .fill _ _ (.fill _ _ (.empty true))
  have ha : Digest.shortHashText ".a\x7b" = "66127d30" := by decide +kernel
  have hb : Digest.shortHashText ".b\x7b\x7d" = "48672fc3" := by decide +kernel
  have hstore : store = ((AssetStore.empty true).fill
        ⟨⟨"/a.css"⟩, "66127d30", Asset.nameOf true "66127d30", ".a\x7b"⟩).fill
      ⟨⟨"/b.css"⟩, "48672fc3", Asset.nameOf true "48672fc3", ".b\x7b\x7d"⟩ := by
    simp only [store, Asset.ofContent, ha, hb]
  have hscan : Plan.scan store code =
      [⟨.static (some "a") none, "./__sheetpack_styles-66127d30.css", ⟨0, 71⟩⟩,
        ⟨.static (some "b") none, "./__sheetpack_styles-48672fc3.css", ⟨72, 143⟩⟩] := by
    rw [hstore, Plan.scan, Script.importNodes, Script.tokenize, String.toList_append,
      String.toList_ofList, String.toList_ofList]
    decide +kernel
  obtain ⟨u, packed, hu, hplan, hpacked⟩ := by
    refine exists_ofCode_of_scan .withClause hscan (by simp) (by decide +kernel) ?_
    rw [String.toList_append, String.toList_ofList, String.toList_ofList]
    decide +kernel
  have hp : ∀ e ∈ u.plan, ∃ a, store.referenced? e.reference = some a := by
    rw [hplan, ← hscan]
    exact fun e he => Plan.exists_referenced he
  have hopen : Sheet.OpenToEnd (Combined.filled store.contentOf u.plan) := by
    refine Combined.openToEnd_filled hs hp ?_
    rw [hplan, hstore]
    decide +kernel
  have he : ⟨.static (some "b") none, "./__sheetpack_styles-48672fc3.css", ⟨72, 143⟩⟩ ∈ u.plan := by
    rw [hplan]
    exact List.mem_cons_of_mem _ List.mem_cons_self
  have hlost := (Combined.isSome_lookup?_iff hs hp he hopen).mp.mt (by
    rw [hplan, hstore]
    decide +kernel)
  have hmade := (of_ofCode_combined hu).2
  rw [hpacked, Option.some.injEq, Combined.artifact_eq hp] at hmade
  refine ⟨hs, u, packed, hu, hpacked, _, he, by rw [hstore]; decide +kernel, ?_⟩
  rw [hmade]
  exact Option.not_isSome_iff_eq_none.mp hlost

end PackedUnit
end StyleBundler
