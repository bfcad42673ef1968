import StyleBundler.Pack.Unit
import StyleBundler.Proofs.Edit
import StyleBundler.Proofs.Pack.Plan
import StyleBundler.Proofs.Sheet.Isolation

/-!
Sheets of a combined stylesheet. Every sheet that is packed into a combined stylesheet
is extracted from it again, with the rules that it has on its own.
-/

namespace StyleBundler

namespace AssetStore

/-- The name of an asset stands in a condition as it is. -/
theorem Reachable.isPlainName {s : AssetStore} (hs : s.Reachable) {a : Asset}
    (h : a ∈ s.assets) : Sheet.IsPlainName a.name.toList := by
  constructor
  · obtain ⟨entry, hentry, rfl⟩ := List.mem_map.mp h
    intro hnil
    have hlen := congrArg List.length hnil
    rw [(hs.eq_ofContent hentry).2] at hlen
    simp [Asset.ofContent, Asset.nameOf, Asset.baseName] at hlen
  · intro c hc
    have hchar := hs.isNameChar h c hc
    have hne : ∀ d : Char, Asset.isNameChar d = false → c ≠ d := by
      rintro d hd rfl
      rw [hchar] at hd
      cases hd
    exact ⟨Sheet.isPreludeChar_iff.mpr ⟨hne _ (by decide), hne _ (by decide), hne _ (by decide),
      hne _ (by decide), hne _ (by decide)⟩, hne _ (by decide)⟩

end AssetStore

namespace Combined

/-- The sheets of a combined stylesheet, each under its name. -/
def sheets (store : AssetStore) (p : Plan) : List (String × String) :=
  p.unique.filterMap fun e =>
    (store.referenced? e.reference).map fun a => (e.sheetName, a.content)

theorem source_eq (store : AssetStore) (p : Plan) :
    source store p = Sheet.combine (sheets store p) := by
  rw [source, Sheet.combine, sheets]
  induction p.unique with
  | nil => rfl
  | cons e es ih =>
      cases h : store.referenced? e.reference with
      | none => simp [blockOf, h, ih]
      | some a => simp [blockOf, h, ih]

theorem mem_sheets {store : AssetStore} {p : Plan} {s : String × String}
    (h : s ∈ sheets store p) :
    ∃ e ∈ p, ∃ a, store.referenced? e.reference = some a ∧ s = (e.sheetName, a.content) := by
  obtain ⟨e, he, hs⟩ := List.mem_filterMap.mp h
  obtain ⟨a, ha, rfl⟩ := Option.map_eq_some_iff.mp hs
  exact ⟨e, Plan.mem_of_mem_unique he, a, ha, rfl⟩

/-- Two entries that lead to assets of one name lead to the same asset. -/
theorem snd_eq_of_mem_sheets {store : AssetStore} {p : Plan} {e : PlannedImport} {a : Asset}
    (ha : store.referenced? e.reference = some a) :
    ∀ s ∈ sheets store p, s.1 = e.sheetName → s.2 = a.content := by
  intro s hs hname
  obtain ⟨d, -, b, hb, rfl⟩ := mem_sheets hs
  have hsame : store.referenced? d.reference = store.referenced? e.reference :=
    congrArg (fun name => store.index.lookup name) hname
  rw [hsame, ha] at hb
  cases hb
  rfl

theorem isPlainName_sheetName {store : AssetStore} (hs : store.Reachable) {e : PlannedImport}
    {a : Asset} (ha : store.referenced? e.reference = some a) :
    Sheet.IsPlainName e.sheetName.toList := by
  have hname : e.sheetName = a.name := hs.nameIn_eq ha
  rw [hname]
  exact hs.isPlainName (AssetStore.mem_assets_of_referenced ha)

/-- A sheet that is packed with self-contained sheets is extracted with its own rules. -/
theorem extract?_source {store : AssetStore} (hs : store.Reachable) {p : Plan}
    (hcss : ∀ a ∈ store.assets, Sheet.SelfContained a.content.toList)
    {e : PlannedImport} (he : e ∈ p) {a : Asset}
    (ha : store.referenced? e.reference = some a) :
    Sheet.extract? (Sheet.parse (source store p)) e.sheetName =
      some (Sheet.parse a.content) := by
  obtain ⟨d, hd, hde⟩ := Plan.exists_mem_unique he
  have hmem : (e.sheetName, a.content) ∈ sheets store p := by
    refine List.mem_filterMap.mpr ⟨d, hd, ?_⟩
    simp [PlannedImport.sheetName, hde, ha]
  have hall : ∀ s ∈ sheets store p,
      Sheet.IsPlainName s.1.toList ∧ Sheet.SelfContained s.2.toList := by
    intro s hs'
    obtain ⟨d, -, b, hb, rfl⟩ := mem_sheets hs'
    exact ⟨isPlainName_sheetName hs hb, hcss b (AssetStore.mem_assets_of_referenced hb)⟩
  obtain ⟨rules, hfound, hown⟩ := Sheet.exists_extract? (fun s hs' => (hall s hs').1) hmem
    (snd_eq_of_mem_sheets ha)
    fun s hs' => (hall s ((List.takeWhile_sublist _).subset hs')).2
  have hself := (hall _ hmem).2
  rw [source_eq, hfound, hown hself.endsBlock, hself.ownBlock_eq, Sheet.parse]

theorem edits_edits (store : AssetStore) (keyword : Script.AttributeKeyword) (p : Plan) :
    (edits store keyword p).edits = p.map fun e => ⟨e.span, replacement e⟩ := by
  simp only [edits, Edits.prepend, Edits.foldl_overwrite, Edits.empty, List.nil_append]

end Combined

namespace PackedUnit

theorem of_ofCode_combined {store : AssetStore} {keyword : Script.AttributeKeyword}
    {code : String} {u : PackedUnit} (h : ofCode store .combined keyword code = .ok (some u)) :
    u.plan = Plan.scan store code ∧ u.artifact = some (Combined.artifact store u.plan) := by
  simp only [ofCode] at h
  split at h
  · cases h
  · cases hcode : (Combined.edits store keyword (Plan.scan store code)).applyText code with
    | error cause => simp [hcode, Except.map] at h
    | ok packed =>
        simp only [hcode, Except.map, Except.ok.injEq, Option.some.injEq] at h
        exact h ▸ ⟨rfl, rfl⟩

theorem exists_ofCode_combined {store : AssetStore} (keyword : Script.AttributeKeyword)
    {code : String} (hplan : Plan.scan store code ≠ [])
    (hsorted : ((Plan.scan store code).map fun e =>
      Edit.mk e.span (Combined.replacement e)).Pairwise fun a b => Edit.precedes a b = true)
    (hfit : Edits.firstError? 0 code.toList 0
      ((Plan.scan store code).map fun e => ⟨e.span, Combined.replacement e⟩) = none) :
    ∃ u, ofCode store .combined keyword code = .ok (some u) := by
  rw [← Combined.edits_edits store keyword] at hsorted hfit
  obtain ⟨packed, hpacked⟩ := Edits.exists_applyText hsorted hfit
  simp only [ofCode, List.isEmpty_iff, hplan, if_false, hpacked]
  exact ⟨_, rfl⟩

/-- Each packed sheet comes back from the combined stylesheet with the rules of the
asset that its import refers to, whatever the other sheets hold. -/
theorem lookup_combined {store : AssetStore} (hs : store.Reachable)
    (hcss : ∀ a ∈ store.assets, Sheet.SelfContained a.content.toList)
    {keyword : Script.AttributeKeyword} {code : String} {u : PackedUnit} {packed : Artifact}
    (h : ofCode store .combined keyword code = .ok (some u))
    (hpacked : u.artifact = some packed) :
    ∀ e ∈ u.plan, ∃ a, store.referenced? e.reference = some a ∧
      (Sheet.Memo.empty.lookup (.ofSource packed.name packed.source) e.sheetName).1 =
        some (0, Sheet.parse a.content) := by
  intro e he
  obtain ⟨hplan, hartifact⟩ := of_ofCode_combined h
  rw [hartifact, Option.some.injEq] at hpacked
  obtain ⟨a, ha⟩ := Plan.exists_referenced (hplan ▸ he)
  refine ⟨a, ha, ?_⟩
  have hfound : Sheet.extract? (Sheet.Combined.ofSource packed.name packed.source).rules
      e.sheetName = some (Sheet.parse a.content) := by
    rw [← hpacked]
    exact Combined.extract?_source hs hcss he ha
  simp only [Sheet.Memo.lookup, Sheet.Memo.empty, List.findIdx?_nil, hfound, List.length_nil]

/-- Two sheets that hold braces in a string, in a comment and in a named block. -/
theorem lookup_combined_nested :
    let store := ((AssetStore.empty true).fill
        (.ofContent true ⟨"/a.css"⟩ ".a\x7bcontent:'\x7d'\x7d/* \x7b */\n")).fill
      (.ofContent true ⟨"/b.css"⟩ "@supports sheet(x) \x7b.b\x7bcolor:red\x7d\x7d")
    let code := "import a from './__sheetpack_styles-395e8078.css' with \x7b type: 'css' \x7d;\n" ++
      "import b from './__sheetpack_styles-c0c474d3.css' with \x7b type: 'css' \x7d;\n"
    (∀ a ∈ store.assets, Sheet.SelfContained a.content.toList) ∧
      ∃ u packed, ofCode store .combined .withClause code = .ok (some u) ∧
        u.artifact = some packed ∧ u.plan.length = 2 ∧
        ∀ e ∈ u.plan, ∃ a, store.referenced? e.reference = some a ∧
          (Sheet.Memo.empty.lookup (.ofSource packed.name packed.source) e.sheetName).1 =
            some (0, Sheet.parse a.content) := by
  intro store code
  have hs : store.Reachable := .fill _ _ (.fill _ _ (.empty true))
  have hcss : ∀ a ∈ store.assets, Sheet.SelfContained a.content.toList := by decide +kernel
  have hplan : Plan.scan store code =
      [⟨.static (some "a") none, "./__sheetpack_styles-395e8078.css", ⟨0, 71⟩⟩,
        ⟨.static (some "b") none, "./__sheetpack_styles-c0c474d3.css", ⟨72, 143⟩⟩] := by
    -- the signs of the literals are at hand; those of the whole text would have to be decoded
    rw [Plan.scan, Script.importNodes, Script.tokenize, String.toList_append, String.toList_ofList,
      String.toList_ofList]
    decide +kernel
  have hne : Plan.scan store code ≠ [] := by simp [hplan]
  obtain ⟨u, hu⟩ := by
    refine exists_ofCode_combined .withClause hne ?_ ?_
    · rw [hplan]
      decide +kernel
    · rw [hplan, String.toList_append, String.toList_ofList, String.toList_ofList]
      decide +kernel
  obtain ⟨huplan, hpacked⟩ := of_ofCode_combined hu
  exact ⟨hcss, u, _, hu, hpacked, by rw [huplan, hplan]; rfl,
    lookup_combined hs hcss hu hpacked⟩

end PackedUnit
end StyleBundler
