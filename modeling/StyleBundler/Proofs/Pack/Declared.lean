import StyleBundler.Proofs.Pack.Rescan
import StyleBundler.Proofs.Script.Declared

/-!
The names that a packed unit declares in front of its own text. A combined stylesheet is loaded
under one name, and two more belong to its extractor; behind them each declaration of the plan
declares what it binds, as often as the plan has it. A generated module is loaded by names that are
exported once each, and only namespace objects are declared again (`declares_front`).
-/

namespace StyleBundler

open Script Lexer

/-- The names that a declaration binds. -/
def PlannedBinding.bound : PlannedBinding → List String
  | .static localName namespaceName => localName.toList ++ namespaceName.toList
  | .dynamic .. => []

namespace Script

/-- Whatever brackets the value opens it closes again. -/
def Piece.Balanced (v : List Piece) : Prop :=
  ∀ depth rest, isStatement depth ((Piece.write v).filterMap Lexeme.kind ++ rest) =
    isStatement depth rest

theorem Piece.balanced_word (name : String) : Piece.Balanced [.word name] := fun _ _ => by
  simp [Piece.lexeme, isStatement, TokenKind.endsStatement, TokenKind.depthBehind]

theorem Piece.Balanced.object {v : List Piece} (h : Piece.Balanced v) :
    Piece.Balanced (Piece.object v) := fun depth rest => by
  have hv := h (depth + 1) (.punct '}' :: rest)
  simpa [Piece.object, Piece.lexeme, isStatement, TokenKind.endsStatement, TokenKind.depthBehind]
    using hv

theorem Declares.binding {store : AssetStore} {v : List Piece} {name text : String}
    (h : Value store v) (hv : Piece.Balanced v) (hname : IsName name.toList)
    (hspell : spell (Piece.write (Piece.binding name v)) = text.toList) :
    Declares text [name] := by
  have hkinds : (Piece.write (Piece.binding name v)).filterMap Lexeme.kind =
      .ident "const" :: .ident name :: .punct '=' ::
        ((Piece.write v).filterMap Lexeme.kind ++ [.punct ';']) := by
    simp [Piece.binding, Piece.lexeme]
  have hstatement := Declares.statement hspell (h.leads_binding hname).chain (by
    rw [hkinds]
    have hvalue := hv 0 [.punct ';']
    simpa [isStatement, TokenKind.endsStatement, TokenKind.depthBehind] using hvalue)
  rw [hkinds] at hstatement
  simpa [declaredBy] using hstatement

end Script

namespace Combined

variable {store : AssetStore} {e : PlannedImport} {p : Plan}

/-- The names that a combined stylesheet and its extractor go by. -/
def ownNames : List String := [Sheet.bundleVariable, "__cached_sheets__", Sheet.getterName]

theorem balanced_extractionPieces (e : PlannedImport) : Piece.Balanced (extractionPieces e) :=
  fun depth rest => by
    simp [extractionPieces, Piece.lexeme, isStatement, TokenKind.endsStatement,
      TokenKind.depthBehind]

theorem declares_declarations (hplain : e.sheetName.toList.all isPlain = true)
    (hnames : ∀ name ∈ e.binding.names, IsName name.toList) :
    Declares (declarations e) e.binding.bound := by
  obtain ⟨binding, reference, span⟩ := e
  cases binding with
  | dynamic => exact .empty
  | static localName namespaceName =>
      have hvalue : Value (.empty true) (extractionPieces _) := value_extractionPieces hplain
      refine Declares.append ?named ?whole
      case named =>
        cases localName with
        | none => exact .empty
        | some name =>
            refine .binding hvalue (balanced_extractionPieces _)
              (hnames name (by simp [PlannedBinding.names])) ?_
            simp [Piece.binding, Piece.lexeme, spell_extractionPieces, String.toList_append]
      case whole =>
        cases namespaceName with
        | none => exact .empty
        | some name =>
            refine .binding hvalue.object (balanced_extractionPieces _).object
              (hnames name (by simp [PlannedBinding.names])) ?_
            simp [Piece.binding, Piece.object, Piece.lexeme, spell_extractionPieces,
              String.toList_append]

theorem declares_loadStatement {name : String} (hplain : name.toList.all isPlain = true)
    (keyword : AttributeKeyword) :
    Declares (loadStatement name keyword) [Sheet.bundleVariable] := by
  have hkinds : (Piece.write (loadPieces name keyword)).filterMap Lexeme.kind =
      [.ident "import", .ident Sheet.bundleVariable, .ident "from", .str ("./" ++ name),
        .ident keyword.text, .punct '{', .ident "type", .punct ':', .str "css", .punct '}',
        .punct ';'] := by
    simp [loadPieces, Piece.lexeme]
  have hstatement := Declares.statement (spell_loadPieces name keyword)
    (chain_loadPieces hplain keyword) (by rw [hkinds]; rfl)
  rw [hkinds] at hstatement
  exact hstatement

set_option maxRecDepth 4000 in
theorem statements_snippet :
    let ss := statements 0 ((lexemes none Sheet.snippet.toList).filterMap Lexeme.kind)
    (∀ s ∈ ss, isStatement 0 s = true) ∧
      ss.flatMap declaredBy = ["__cached_sheets__", Sheet.getterName] := by
  simp only [Sheet.snippet, List.map, String.join, List.foldl, String.toList_append]
  decide +kernel

theorem declares_snippet : Declares Sheet.snippet ["__cached_sheets__", Sheet.getterName] := by
  have hlead : IsLead (.empty true) Sheet.snippet := isLead_snippet
  obtain ⟨ls, hspell, hleads⟩ := hlead
  have hlexemes : lexemes none Sheet.snippet.toList = ls := by
    have hread := lexemes_chain (hleads.chain none [])
    rwa [List.append_nil, hspell, lexemes, List.append_nil] at hread
  obtain ⟨hall, hnames⟩ := statements_snippet
  rw [hlexemes] at hall hnames
  exact ⟨ls, _, hspell, hleads.chain, (flatten_statements 0 _).symm, hall, hnames⟩

theorem declares_front (keyword : AttributeKeyword)
    (hplain : ∀ e ∈ p, e.sheetName.toList.all isPlain = true)
    (hnames : ∀ e ∈ p, ∀ name ∈ e.binding.names, IsName name.toList) :
    Declares (String.join (edits store keyword p).front)
      (ownNames ++ p.flatMap fun e => e.binding.bound) := by
  rw [edits_front]
  exact (declares_loadStatement (isPlain_artifact store p) keyword).append
    (declares_snippet.append (.join fun e he => declares_declarations (hplain e he) (hnames e he)))

end Combined

namespace Exported

variable {store : AssetStore} {p : Plan}

theorem declares_loadStatement {names : List String} (hnames : ∀ name ∈ names, IsName name.toList)
    {artifact : String} (hplain : artifact.toList.all isPlain = true) :
    Declares (loadStatement names artifact) names := by
  have hkinds : (Piece.write (loadPieces names artifact)).filterMap Lexeme.kind =
      TokenKind.ident "import" :: TokenKind.punct '{' ::
        ((Piece.write (Piece.listed names)).filterMap Lexeme.kind ++
          [TokenKind.punct '}', .ident "from", .str ("./" ++ artifact), .punct ';']) := by
    simp [loadPieces, Piece.lexeme]
  have hstatement := Declares.statement (spell_loadPieces names artifact)
    (chain_loadPieces hnames hplain) (by
      rw [hkinds]
      have hlisted := isStatement_append_of_isInner (isInner_listed names) 1
        [.punct '}', .ident "from", .str ("./" ++ artifact), .punct ';']
      simpa [isStatement, TokenKind.endsStatement, TokenKind.depthBehind] using hlisted)
  rw [hkinds] at hstatement
  have hclause := clauseNames_listed names ("./" ++ artifact) [.punct ';']
  simpa [declaredBy, clauseNames, endsClause, hclause] using hstatement

/-- The name of the namespace object of a declaration. -/
def wholeName? (e : PlannedImport) : Option String :=
  match e.binding with
  | .static _ whole => whole
  | .dynamic .. => none

theorem declares_namespaceObject {place : Nat} {name : String} {e : PlannedImport}
    (hnames : ∀ name ∈ e.binding.names, IsName name.toList) (hread : localName? place e = some name) :
    Declares (namespaceObject name e) (wholeName? e).toList := by
  have hname := isName_localName? hnames hread
  obtain ⟨binding, reference, span⟩ := e
  rcases binding with ⟨localName, _ | whole⟩ | _
  · exact .empty
  · have hvalue : Value (.empty true) [.word name] := .word hname
    refine .binding hvalue.object (Piece.balanced_word name).object
      (hnames whole (by simp [PlannedBinding.names])) ?_
    simp [namespaceObject, Piece.binding, Piece.object, Piece.lexeme, String.toList_append]
  · exact .empty

/-- Every namespace object has a reader. -/
theorem flatMap_readers (place : Nat) (p : Plan) :
    (readers place p).flatMap (fun r => (wholeName? r.2).toList) = p.filterMap wholeName? := by
  induction p generalizing place with
  | nil => rfl
  | cons e p ih =>
      rw [readers, List.flatMap_append, ih, List.filterMap_cons]
      obtain ⟨binding, reference, span⟩ := e
      rcases binding with ⟨_ | name, _ | whole⟩ | ⟨_ | name, awaited⟩ <;> rfl

theorem declares_namespaceObjects (hnames : ∀ e ∈ p, ∀ name ∈ e.binding.names, IsName name.toList) :
    Declares (namespaceObjects p) (p.filterMap wholeName?) := by
  rw [← flatMap_readers 0]
  refine .join fun r hr => ?_
  obtain ⟨place, hplace, hread⟩ := exists_readBy hr
  exact declares_namespaceObject (hnames r.2 (List.mem_of_getElem? hplace)) hread

theorem declares_front (hnames : ∀ e ∈ p, ∀ name ∈ e.binding.names, IsName name.toList) :
    Declares (String.join (edits store p).front)
      ((sheetExports store p).map SheetExport.name ++ p.filterMap wholeName?) := by
  cases hpacked : artifact? store p with
  | some packed =>
      rw [edits_front hpacked]
      exact (declares_loadStatement (isName_of_mem_names hnames)
        (isPlain_of_artifact? hpacked)).append (declares_namespaceObjects hnames)
  | none =>
      have hbare : ∀ e ∈ p, e.binding = .static none none := by
        have hnone := mt (isSome_artifact?_iff store p).mpr (by simp [hpacked])
        simpa using hnone
      have hexports : sheetExports store p = [] := by
        simpa [artifact?] using hpacked
      have hwhole : p.filterMap wholeName? = [] :=
        List.filterMap_eq_nil_iff.mpr fun e he => by rw [wholeName?, hbare e he]
      rw [front_eq_nil hpacked, hexports, hwhole]
      exact .empty

end Exported

namespace PackedUnit

variable {store : AssetStore} {mode : PackMode} {keyword : AttributeKeyword} {code : String}
  {u : PackedUnit}

/-- What takes the places of the entries. -/
def replacements : PackMode → Plan → List Edit
  | .combined, p => p.map fun e => ⟨e.span, Combined.replacement e⟩
  | .exportedModules, p => p.zipIdx.map fun x => ⟨x.1.span, Exported.replacement x.2 x.1⟩

/-- The names that packing declares in front of a unit. -/
def frontNames (store : AssetStore) : PackMode → Plan → List String
  | .combined, p => Combined.ownNames ++ p.flatMap fun e => e.binding.bound
  | .exportedModules, p =>
      (Exported.sheetExports store p).map Exported.SheetExport.name ++
        p.filterMap Exported.wholeName?

/-- The packed unit is a text in front of its own, in which each entry has given way to what takes
its place. -/
structure IsMadeOf (u : PackedUnit) (mode : PackMode) (code front body : String) : Prop where
  text : u.code = front ++ body
  replaced : Edits.spliceEach code.toList (Edits.ordered (replacements mode u.plan)) =
    some body.toList

theorem exists_front_of_ofCode (hs : store.Reachable)
    (h : ofCode store mode keyword code = .ok (some u)) :
    u.plan = Plan.scan store code ∧ ∃ front body, u.IsMadeOf mode code front body ∧
      declaredNames front = frontNames store mode u.plan := by
  have hne := scan_ne_nil_of_ofCode h
  have hnames := fun e (he : e ∈ Plan.scan store code) => Plan.isName_of_mem_scan he
  have hmade : ∀ {s : Edits}, s.applyText code = .ok u.code →
      s.edits = replacements mode (Plan.scan store code) → u.plan = Plan.scan store code →
      Declares (String.join s.front) (frontNames store mode (Plan.scan store code)) →
      ∃ front body, u.IsMadeOf mode code front body ∧
        declaredNames front = frontNames store mode u.plan := by
    intro s happly hedits hplan hdeclares
    have hcalled : s.isEmpty = false := by
      cases mode <;> simp [Edits.isEmpty, hedits, replacements, hne]
    obtain ⟨body, hbody, htext⟩ := Edits.exists_splice_of_applyText happly hcalled
    refine ⟨String.join s.front, String.ofList body, ⟨?_, ?_⟩, ?_⟩
    · rw [← String.toList_inj, htext, String.toList_append, String.toList_ofList]
    · rw [hplan, ← hedits, hbody, String.toList_ofList]
    · rw [hdeclares.declaredNames_eq, hplan]
  cases mode with
  | combined =>
      obtain ⟨hplan, -⟩ := of_ofCode_combined h
      refine ⟨hplan, hmade (applyText_of_ofCode_combined h) (Combined.edits_edits store keyword _)
        hplan (Combined.declares_front keyword (fun e he => ?_) hnames)⟩
      obtain ⟨a, ha⟩ := Plan.exists_referenced he
      exact Combined.isPlain_sheetName hs ha
  | exportedModules =>
      obtain ⟨hplan, -, happly⟩ := of_ofCode_exported h
      rw [hplan] at happly
      exact ⟨hplan, hmade happly (Exported.edits_edits store _) hplan
        (Exported.declares_front hnames)⟩

theorem map_span_replacements (mode : PackMode) (p : Plan) :
    (replacements mode p).map Edit.span = p.map PlannedImport.span := by
  cases mode with
  | combined => exact List.map_map
  | exportedModules =>
      rw [replacements, List.map_map]
      exact (List.map_map (l := p.zipIdx) (f := Prod.fst) (g := PlannedImport.span)).symm.trans
        (by rw [List.zipIdx_map_fst])

/-- Packing succeeds where the entries of the plan do not overlap. -/
theorem exists_ofCode_of_keepsApart (mode : PackMode) (keyword : AttributeKeyword) {p : Plan}
    (hscan : Plan.scan store code = p) (hne : p ≠ []) (hapart : p.KeepsApart) :
    ∃ u, ofCode store mode keyword code = .ok (some u) ∧ u.plan = p := by
  have hvalid : Edits.Valid code.toList (replacements mode p) := by
    subst hscan
    exact (Plan.keepsApart_iff_of_map_span (map_span_replacements mode _)).mp hapart
  have happly : ∀ {s : Edits}, s.edits = replacements mode p → ∃ text, s.applyText code = .ok text := by
    intro s hedits
    cases htext : s.applyText code with
    | ok text => exact ⟨text, rfl⟩
    | error err =>
        refine absurd (hedits ▸ hvalid) (Edits.exists_error_iff.mp ⟨err, ?_⟩)
        exact Edits.applyText_eq_error_iff.mp htext
  cases mode with
  | combined =>
      obtain ⟨text, htext⟩ := happly (Combined.edits_edits store keyword p)
      simp [ofCode, hscan, hne, htext, Except.map]
  | exportedModules =>
      obtain ⟨text, htext⟩ := happly (Exported.edits_edits store p)
      simp [ofCode, hscan, hne, htext, Except.map]

/-- What the combined encoding declares in front of a unit: its own three names, and what the
declarations of the plan bind, one after the other. No name is declared twice just when no two
declarations bind one name, none binds its default and its namespace by one name, and none binds one
of the three. -/
theorem declaredNames_combined (hs : store.Reachable)
    (h : ofCode store .combined keyword code = .ok (some u)) :
    ∃ front body, u.IsMadeOf .combined code front body ∧
      declaredNames front = Combined.ownNames ++ u.plan.flatMap (fun e => e.binding.bound) ∧
      ((declaredNames front).Nodup ↔
        (u.plan.flatMap fun e => e.binding.bound).Nodup ∧
          ∀ e ∈ u.plan, ∀ name ∈ e.binding.bound, name ∉ Combined.ownNames) := by
  obtain ⟨-, front, body, hmade, hnames⟩ := exists_front_of_ofCode hs h
  refine ⟨front, body, hmade, hnames, ?_⟩
  rw [hnames, frontNames, List.nodup_append]
  have hown : Combined.ownNames.Nodup := by decide
  refine ⟨fun ⟨_, hbound, hapart⟩ => ⟨hbound, fun e he name hname hmem => ?_⟩,
    fun ⟨hbound, hapart⟩ => ⟨hown, hbound, ?_⟩⟩
  · exact hapart name hmem name (List.mem_flatMap.mpr ⟨e, he, hname⟩) rfl
  · rintro name hmem _ hname rfl
    obtain ⟨e, he, hname⟩ := List.mem_flatMap.mp hname
    exact hapart e he name hname hmem

theorem declaredNames_combined_apart :
    let store := (AssetStore.empty true).fill (.ofContent true ⟨"/a.css"⟩ ".a\x7b\x7d")
    let code := "import s from './__sheetpack_styles-cf290c7a.css' with \x7b type: 'css' \x7d;\n" ++
      "import t, * as n from './__sheetpack_styles-cf290c7a.css' with \x7b type: 'css' \x7d;\n"
    ∃ u front body, ofCode store .combined .withClause code = .ok (some u) ∧
      u.IsMadeOf .combined code front body ∧ (declaredNames front).Nodup ∧
      declaredNames front = Combined.ownNames ++ ["s", "t", "n"] := by
  intro store code
  have hs : store.Reachable := .fill _ _ (.empty true)
  have hscan : Plan.scan store code =
      [⟨.static (some "s") none, "./__sheetpack_styles-cf290c7a.css", ⟨0, 71⟩⟩,
        ⟨.static (some "t") (some "n"), "./__sheetpack_styles-cf290c7a.css", ⟨72, 151⟩⟩] := by
    rw [Plan.scan, importNodes, tokenize, String.toList_append, String.toList_ofList,
      String.toList_ofList]
    decide +kernel
  obtain ⟨u, hu, hplan⟩ :=
    exists_ofCode_of_keepsApart .combined .withClause hscan (by simp) (by decide)
  obtain ⟨front, body, hmade, hnames, hnodup⟩ := declaredNames_combined hs hu
  rw [hplan] at hnames hnodup
  exact ⟨u, front, body, hu, hmade, hnodup.mpr (by decide), hnames⟩

/-- Two modules that import one stylesheet by one name: the name is declared twice. -/
theorem declaredNames_combined_repeated :
    let store := (AssetStore.empty true).fill (.ofContent true ⟨"/a.css"⟩ ".a\x7b\x7d")
    let code := "import s from './__sheetpack_styles-cf290c7a.css' with \x7b type: 'css' \x7d;\n" ++
      "1;\nimport s from './__sheetpack_styles-cf290c7a.css' with \x7b type: 'css' \x7d;\n2;\n"
    ∃ u front body, ofCode store .combined .withClause code = .ok (some u) ∧
      u.IsMadeOf .combined code front body ∧ ¬(declaredNames front).Nodup := by
  intro store code
  have hs : store.Reachable := .fill _ _ (.empty true)
  have hscan : Plan.scan store code =
      [⟨.static (some "s") none, "./__sheetpack_styles-cf290c7a.css", ⟨0, 71⟩⟩,
        ⟨.static (some "s") none, "./__sheetpack_styles-cf290c7a.css", ⟨75, 146⟩⟩] := by
    rw [Plan.scan, importNodes, tokenize, String.toList_append, String.toList_ofList,
      String.toList_ofList]
    decide +kernel
  obtain ⟨u, hu, hplan⟩ :=
    exists_ofCode_of_keepsApart .combined .withClause hscan (by simp) (by decide)
  obtain ⟨-, front, body, hmade, hnames⟩ := exists_front_of_ofCode hs hu
  rw [hplan] at hnames
  exact ⟨u, front, body, hu, hmade, by rw [hnames]; decide⟩

end PackedUnit

end StyleBundler
