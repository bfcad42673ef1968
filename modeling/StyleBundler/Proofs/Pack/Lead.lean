import StyleBundler.Proofs.Import.Names
import StyleBundler.Proofs.Pack.Combined
import StyleBundler.Proofs.Pack.Exports
import StyleBundler.Proofs.Pack.Statement

/-!
What packing puts in front of a unit and in the place of its calls imports no asset: neither do the
statements that load the artifact, whose name is that of no asset, nor those that bind the names of
the unit, whatever these are.
-/

namespace StyleBundler

open Script Lexer

namespace Script

theorem IsName.append {a b : List Char} (ha : IsName a) (hb : ∀ d ∈ b, isNameChar d = true) :
    IsName (a ++ b) := by
  obtain ⟨c, rest, rfl, hdigit, hall⟩ := ha
  refine ⟨c, rest ++ b, rfl, hdigit, fun d hd => ?_⟩
  rcases List.mem_append.mp hd with hd | hd
  · exact hall d hd
  · exact hb d hd

theorem IsName.all {cs : List Char} (h : IsName cs) : ∀ d ∈ cs, isNameChar d = true := by
  obtain ⟨c, rest, -, -, hall⟩ := h
  exact hall

end Script

theorem isPlain_of_isNameChar {c : Char} (h : Asset.isNameChar c = true) : isPlain c = true := by
  simp only [isPlain, Bool.and_eq_true, bne_iff_ne]
  refine ⟨⟨?_, ?_⟩, ?_⟩ <;> rintro rfl <;> revert h <;> decide

theorem Artifact.isNameChar_ofSource (source : String) (mode : PackMode) :
    ∀ c ∈ (Artifact.ofSource source mode.extension).name.toList, Asset.isNameChar c = true := by
  intro c hc
  simp only [Artifact.ofSource, Digest.fileNameText, Digest.fileName, String.toList_append,
    List.mem_append] at hc
  have hdigits : "0123456789abcdef".toList.all Asset.isNameChar = true := by decide
  have hextension : mode.extension.toList.all Asset.isNameChar = true := by cases mode <;> decide
  rcases hc with (((hc | hc) | hc) | hc) | hc
  · exact List.all_eq_true.mp (by decide) c hc
  · exact List.all_eq_true.mp (by decide) c hc
  · exact List.all_eq_true.mp hdigits c (Digest.mem_shortHash hc)
  · exact List.all_eq_true.mp (by decide) c hc
  · exact List.all_eq_true.mp hextension c hc

/-- No asset has the name of an artifact. -/
theorem AssetStore.Reachable.referenced?_artifact {store : AssetStore} (hs : store.Reachable)
    (source extension : String) :
    store.referenced? ("./" ++ (Artifact.ofSource source extension).name) = none := by
  rw [Option.eq_none_iff_forall_ne_some]
  intro a ha
  have hname := hs.nameIn_eq ha
  rw [hs.name_eq (AssetStore.mem_assets_of_referenced ha), Asset.nameIn] at hname
  have hafter : Text.after? ['.', '/'] ("./" ++ (Artifact.ofSource source extension).name).toList =
      some (Artifact.ofSource source extension).name.toList := by
    rw [Text.after?_eq_some_iff, String.toList_append]
    rfl
  rw [hafter] at hname
  have hhead := congrArg (fun s => s.toList.head?) hname
  simp only [String.toList_ofList, Artifact.ofSource, Digest.fileNameText, Digest.fileName,
    Artifact.baseName, Asset.nameOf, String.toList_append] at hhead
  cases hstaging : store.staging <;>
    simp [hstaging, Asset.stagingMark, Asset.baseName] at hhead

namespace IsLead

variable {store : AssetStore} {v : List Piece} {name value : String}

theorem binding (h : Value store v) (hv : spell (Piece.write v) = value.toList)
    (hname : IsName name.toList) : IsLead store ("const " ++ name ++ " = " ++ value ++ ";\n") := by
  refine ⟨_, ?_, h.leads_binding hname⟩
  simp [Piece.binding, Piece.lexeme, hv, String.toList_append]

/-- A namespace object. -/
theorem binding_object (h : Value store v) (hv : spell (Piece.write v) = value.toList)
    (hname : IsName name.toList) :
    IsLead store ("const " ++ name ++ " = \x7b default: " ++ value ++ " \x7d;\n") := by
  refine ⟨_, ?_, h.object.leads_binding hname⟩
  simp [Piece.binding, Piece.object, Piece.lexeme, hv, String.toList_append]

end IsLead

namespace Exported

variable {store : AssetStore}

theorem isName_localName? {place : Nat} {e : PlannedImport} {name : String}
    (hnames : ∀ name ∈ e.binding.names, IsName name.toList) (h : localName? place e = some name) :
    IsName name.toList := by
  have hend : ∀ d ∈ "__".toList, isNameChar d = true := List.all_eq_true.mp (by decide)
  unfold localName? at h
  split at h
  · next hbinding =>
      cases h
      exact hnames name (by simp [hbinding, PlannedBinding.names])
  · next whole hbinding =>
      cases h
      have hwhole := hnames whole (by simp [hbinding, PlannedBinding.names])
      rw [String.toList_append, String.toList_append]
      exact (IsName.append (by decide) hwhole.all).append hend
  · cases h
  · next variableName _ hbinding =>
      cases h
      have hvariable := hnames variableName (by simp [hbinding, PlannedBinding.names])
      rw [String.toList_append, String.toList_append]
      exact (IsName.append (by decide) hvariable.all).append hend
  · cases h
    rw [String.toList_append, String.toList_append]
    refine (IsName.append (by decide) fun d hd => ?_).append hend
    rw [Nat.toString_eq_ofList_toDigits, String.toList_ofList] at hd
    have hdigit := Nat.isDigit_of_mem_toDigits (by decide) (by decide) hd
    simp [isNameChar, Char.isAlphanum, hdigit]

theorem isLead_namespaceObjects {p : Plan}
    (hnames : ∀ e ∈ p, ∀ name ∈ e.binding.names, IsName name.toList) :
    IsLead store (namespaceObjects p) := by
  refine IsLead.join fun s hs => ?_
  obtain ⟨⟨name, e⟩, hread, rfl⟩ := List.mem_map.mp hs
  obtain ⟨place, hplace, hname⟩ := exists_readBy hread
  have he := hnames e (List.mem_of_getElem? hplace)
  dsimp only
  unfold namespaceObject
  split
  · next whole hbinding =>
      refine IsLead.binding_object (.word (isName_localName? he hname)) ?_
        (he whole (by simp [hbinding, PlannedBinding.names]))
      simp [Piece.lexeme]
  · exact IsLead.empty

/-- The pieces of the statement that loads the generated module. -/
def loadPieces (names : List String) (artifact : String) : List Piece :=
  [.word "import", .blank ' ', .sign '\x7b', .blank ' '] ++
    (Piece.listed names ++ ([.blank ' ', .sign '\x7d', .blank ' ', .word "from", .blank ' '] ++
      .quote ("./" ++ artifact) :: [.sign ';', .blank '\n']))

theorem spell_loadPieces (names : List String) (artifact : String) :
    spell (Piece.write (loadPieces names artifact)) = (loadStatement names artifact).toList := by
  simp [loadPieces, loadStatement, Piece.lexeme, Piece.spell_listed, String.toList_append]

theorem chain_loadPieces {names : List String} (hnames : ∀ name ∈ names, IsName name.toList)
    {artifact : String} (hplain : artifact.toList.all isPlain = true) (prior : Option TokenKind)
    (ds : List Char) : Chain prior (Piece.write (loadPieces names artifact)) ds := by
  refine Piece.chain_write ?_ ?_ prior ds
  · refine List.forall_mem_append.mpr ⟨by decide, List.forall_mem_append.mpr ⟨?_,
      List.forall_mem_append.mpr ⟨by decide, List.forall_mem_cons.mpr ⟨?_, by decide⟩⟩⟩⟩
    · intro p hp
      rcases Piece.mem_listed hp with ⟨name, hname, rfl⟩ | rfl | rfl
      · exact hnames name hname
      · rfl
      · rfl
    · simpa [Piece.Sound, String.toList_append, isPlain] using hplain
  · have hbehind := Piece.spaced_append (Piece.spaced_listed names ' ')
      (b := [.sign '\x7d', .blank ' ', .word "from", .blank ' ', .quote ("./" ++ artifact),
        .sign ';', .blank '\n']) rfl
    have hall := Piece.spaced_append (a := [.word "import", .blank ' ', .sign '\x7b', .blank ' '])
      rfl hbehind
    simpa [loadPieces] using hall

theorem isLead_loadStatement {names : List String} (hnames : ∀ name ∈ names, IsName name.toList)
    {artifact : String} (hplain : artifact.toList.all isPlain = true)
    (href : store.referenced? ("./" ++ artifact) = none) :
    IsLead store (loadStatement names artifact) := by
  refine ⟨Piece.write (loadPieces names artifact), spell_loadPieces names artifact,
    chain_loadPieces hnames hplain, ?_, ?_⟩
  · exact fun prior => .inr (by simp [loadPieces, Piece.lexeme])
  · intro before pos behind
    rw [loadPieces, Piece.write_append, Piece.write_append, place_append, place_append]
    exact (Plan.Inert.listed _).quiet_load rfl rfl rfl rfl rfl href before behind

theorem isName_of_mem_names {p : Plan} (hnames : ∀ e ∈ p, ∀ name ∈ e.binding.names,
    IsName name.toList) : ∀ name ∈ (sheetExports store p).map SheetExport.name,
      IsName name.toList := by
  rw [names_sheetExports]
  intro name hname
  obtain ⟨⟨name, e⟩, hc, rfl⟩ := List.mem_map.mp hname
  obtain ⟨place, hplace, hread⟩ := exists_readBy (mem_contributorsFrom hc).1
  exact isName_localName? (hnames e (List.mem_of_getElem? hplace)) hread

theorem isPlain_of_artifact? {p : Plan} {packed : Artifact}
    (h : artifact? store p = some packed) : packed.name.toList.all isPlain = true := by
  rw [eq_ofSource_of_artifact? h]
  exact List.all_eq_true.mpr fun c hc =>
    isPlain_of_isNameChar (Artifact.isNameChar_ofSource _ _ c hc)

theorem isLead_front (hs : store.Reachable) {p : Plan}
    (hnames : ∀ e ∈ p, ∀ name ∈ e.binding.names, IsName name.toList) :
    IsLead store (String.join (edits store p).front) := by
  cases hpacked : artifact? store p with
  | none =>
      rw [front_eq_nil hpacked]
      exact IsLead.empty
  | some packed =>
      rw [edits_front hpacked]
      refine IsLead.append (isLead_loadStatement (isName_of_mem_names hnames)
        (isPlain_of_artifact? hpacked) ?_) (isLead_namespaceObjects hnames)
      rw [eq_ofSource_of_artifact? hpacked]
      exact hs.referenced?_artifact _ _

/-- A promise of an export takes the place of a call. -/
theorem filledBy_replacement (place : Nat) {e : PlannedImport}
    (hnames : ∀ name ∈ e.binding.names, IsName name.toList) :
    e.FilledBy (replacement place e) := by
  obtain ⟨binding, reference, span⟩ := e
  cases binding with
  | static => exact ⟨[], rfl, fun _ => rfl, Bool.noConfusion⟩
  | dynamic variableName awaited =>
      obtain ⟨name, rest, hname, hrest⟩ : ∃ name rest,
          localName? place ⟨.dynamic variableName awaited, reference, span⟩ = some name ∧
            name = "__dynamic_import_" ++ rest := by
        cases variableName with
        | none => exact ⟨_, _, rfl, String.append_assoc⟩
        | some variableName => exact ⟨_, _, rfl, String.append_assoc⟩
      have hsound : ∀ p ∈ [Piece.word name], p.Sound :=
        List.forall_mem_singleton.mpr (isName_localName? hnames hname)
      have hsilent : ∀ p ∈ [Piece.word name], p ≠ .word "import" := by
        rw [List.forall_mem_singleton, hrest]
        intro himport
        have hhead := congrArg (fun s => s.toList.head?) (Piece.word.inj himport)
        simp [String.toList_append] at hhead
      have hvalue : spell (Piece.write [.word name]) = name.toList := by simp [Piece.lexeme]
      refine ⟨Piece.write (Piece.promise [.word name] awaited), ?_, Bool.noConfusion,
        fun _ => settled_promise hsound (Piece.closable_word name) hsilent awaited⟩
      rw [spell_promise hvalue, replacement, hname]

end Exported

namespace Combined

variable {store : AssetStore} {e : PlannedImport}

/-- The pieces of the call that extracts a sheet. -/
def extractionPieces (e : PlannedImport) : List Piece :=
  [.word Sheet.getterName, .sign '(', .word Sheet.bundleVariable, .sign ',', .blank ' '] ++
    .quote e.sheetName :: [.sign ')']

theorem spell_extractionPieces (e : PlannedImport) :
    spell (Piece.write (extractionPieces e)) = (extraction e).toList := by
  simp [extractionPieces, extraction, Piece.lexeme, String.toList_append]

theorem sound_extractionPieces (h : e.sheetName.toList.all isPlain = true) :
    ∀ p ∈ extractionPieces e, p.Sound :=
  List.forall_mem_append.mpr ⟨by decide, List.forall_mem_cons.mpr ⟨h, by decide⟩⟩

theorem closable_extractionPieces (e : PlannedImport) : Piece.Closable (extractionPieces e) :=
  Piece.closable_of_spaced rfl

theorem value_extractionPieces (h : e.sheetName.toList.all isPlain = true) :
    Value store (extractionPieces e) where
  sound := sound_extractionPieces h
  closable := closable_extractionPieces e
  inert _ := by
    refine Plan.Inert.word_sign (.sign ?_ rfl rfl) rfl rfl (by decide)
    refine Plan.Inert.word_sign (.sign ?_ rfl rfl) rfl rfl (by decide)
    exact .string (.sign .nil rfl rfl) rfl

theorem isPlain_sheetName (hs : store.Reachable) {a : Asset}
    (ha : store.referenced? e.reference = some a) : e.sheetName.toList.all isPlain = true := by
  have hname : e.sheetName = a.name := hs.nameIn_eq ha
  rw [hname]
  exact List.all_eq_true.mpr fun c hc =>
    isPlain_of_isNameChar (hs.isNameChar (AssetStore.mem_assets_of_referenced ha) c hc)

theorem isLead_declarations (hplain : e.sheetName.toList.all isPlain = true)
    (hnames : ∀ name ∈ e.binding.names, IsName name.toList) : IsLead store (declarations e) := by
  obtain ⟨binding, reference, span⟩ := e
  cases binding with
  | dynamic => exact IsLead.empty
  | static localName namespaceName =>
      refine IsLead.append ?_ ?_
      · cases localName with
        | none => exact IsLead.empty
        | some name =>
            exact IsLead.binding (value_extractionPieces hplain) (spell_extractionPieces _)
              (hnames name (by simp [PlannedBinding.names]))
      · cases namespaceName with
        | none => exact IsLead.empty
        | some name =>
            exact IsLead.binding_object (value_extractionPieces hplain) (spell_extractionPieces _)
              (hnames name (by simp [PlannedBinding.names]))

/-- The pieces of the statement that loads the combined stylesheet. -/
def loadPieces (name : String) (keyword : AttributeKeyword) : List Piece :=
  [.word "import", .blank ' ', .word Sheet.bundleVariable, .blank ' ', .word "from", .blank ' '] ++
    .quote ("./" ++ name) :: ([.blank ' ', .word keyword.text, .blank ' ', .sign '\x7b', .blank ' ',
      .word "type", .sign ':', .blank ' ', .quote "css", .blank ' ', .sign '\x7d', .sign ';',
      .blank '\n'])

theorem spell_loadPieces (name : String) (keyword : AttributeKeyword) :
    spell (Piece.write (loadPieces name keyword)) = (loadStatement name keyword).toList := by
  simp [loadPieces, loadStatement, Piece.lexeme, String.toList_append]

theorem chain_loadPieces {name : String} (hplain : name.toList.all isPlain = true)
    (keyword : AttributeKeyword) (prior : Option TokenKind) (ds : List Char) :
    Chain prior (Piece.write (loadPieces name keyword)) ds := by
  refine Piece.chain_write ?_ rfl prior ds
  refine List.forall_mem_append.mpr ⟨by decide, List.forall_mem_cons.mpr ⟨?_, ?_⟩⟩
  · simpa [Piece.Sound, String.toList_append, isPlain] using hplain
  · cases keyword <;> decide

/-- The statement that loads the combined stylesheet imports a stylesheet, but no asset. -/
theorem isLead_loadStatement {name : String} (hplain : name.toList.all isPlain = true)
    (href : store.referenced? ("./" ++ name) = none) (keyword : AttributeKeyword) :
    IsLead store (loadStatement name keyword) := by
  refine ⟨Piece.write (loadPieces name keyword), spell_loadPieces name keyword,
    chain_loadPieces hplain keyword, ?_, ?_⟩
  · exact fun prior => .inr (by simp [loadPieces, Piece.lexeme])
  · intro before pos behind
    refine ⟨Plan.plansAt_of_readClause? rfl ?_, Plan.quiet_settled ?_ _⟩
    · rintro bound source span rest hread
      cases hread
      exact href
    · cases keyword <;> simp [Piece.lexeme, Sheet.bundleVariable, AttributeKeyword.text]

theorem isPlain_artifact (store : AssetStore) (p : Plan) :
    (artifact store p).name.toList.all isPlain = true :=
  List.all_eq_true.mpr fun c hc =>
    isPlain_of_isNameChar (Artifact.isNameChar_ofSource _ .combined c hc)

theorem edits_front (store : AssetStore) (keyword : AttributeKeyword) (p : Plan) :
    String.join (edits store keyword p).front =
      loadStatement (artifact store p).name keyword ++
        (Sheet.snippet ++ String.join (p.map declarations)) := by
  simp [edits, Edits.prepend, Edits.foldl_overwrite, Edits.empty]

set_option maxRecDepth 4000 in
/-- The lexemes of the extractor: it starts with no regular expression, ends with a statement and a
new line, and has no `import`. -/
theorem lexemes_snippet :
    firstKind? (lexemes none Sheet.snippet.toList) ≠ some .regex ∧
      (lexemes none Sheet.snippet.toList).getLast? = some ⟨none, ['\n']⟩ ∧
      lastKind none (lexemes none Sheet.snippet.toList) = some (.punct ';') ∧
      ∀ l ∈ lexemes none Sheet.snippet.toList, l.kind ≠ some (.ident "import") := by
  simp only [Sheet.snippet, List.map, String.join, List.foldl, String.toList_append]
  decide +kernel

theorem isLead_snippet : IsLead store Sheet.snippet := by
  obtain ⟨hfirst, hlast, hends, hsilent⟩ := lexemes_snippet
  refine ⟨_, flatMap_text_lexemes none Sheet.snippet.toList, ⟨?_, ?_, ?_⟩⟩
  · intro prior ds
    refine (chain_lexemes none _).of_synced (.inr ⟨rfl, hfirst⟩) fun prior l hl _ => ?_
    obtain rfl : ⟨none, ['\n']⟩ = l := Option.some.inj (hlast.symm.trans hl)
    exact stands_blank prior rfl ds
  · intro prior
    rw [lastKind_eq none 0] at hends
    rw [lastKind_eq prior 0]
    generalize (place 0 (lexemes none Sheet.snippet.toList)).getLast?.map Token.kind = last at hends
    cases last with
    | none => cases hends
    | some kind => exact .inr hends
  · exact fun before pos behind => Plan.quiet_settled hsilent pos

theorem isLead_front (hs : store.Reachable) (keyword : AttributeKeyword) {p : Plan}
    (hplain : ∀ e ∈ p, e.sheetName.toList.all isPlain = true)
    (hnames : ∀ e ∈ p, ∀ name ∈ e.binding.names, IsName name.toList) :
    IsLead store (String.join (edits store keyword p).front) := by
  rw [edits_front]
  refine IsLead.append (isLead_loadStatement (isPlain_artifact store p)
    (hs.referenced?_artifact _ _) keyword) (isLead_snippet.append (IsLead.join fun s hs => ?_))
  obtain ⟨e, he, rfl⟩ := List.mem_map.mp hs
  exact isLead_declarations (hplain e he) (hnames e he)

/-- A promise of what is extracted takes the place of a call. -/
theorem filledBy_replacement (hplain : e.sheetName.toList.all isPlain = true) :
    e.FilledBy (replacement e) := by
  obtain ⟨binding, reference, span⟩ := e
  cases binding with
  | static => exact ⟨[], rfl, fun _ => rfl, nofun⟩
  | dynamic variableName awaited =>
      refine ⟨_, spell_promise (spell_extractionPieces _) awaited, nofun, fun _ =>
        settled_promise (sound_extractionPieces hplain) (closable_extractionPieces _) ?_ awaited⟩
      simp [extractionPieces, Sheet.getterName, Sheet.bundleVariable]

end Combined

end StyleBundler
