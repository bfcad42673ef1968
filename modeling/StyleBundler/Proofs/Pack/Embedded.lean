import Mathlib.Data.List.Nodup
import StyleBundler.Proofs.Pack.Lead
import StyleBundler.Proofs.Script.Cursor
import StyleBundler.Proofs.Script.Escaping

/-!
Sheets embedded in a generated module. The text of each export is read as the tokens that it is
written with, whatever stands in a sheet (`SheetExport.chain_lexemes`), so that the templates of a
module are the contents of the sheets that it constructs (`templates_source`).
-/

namespace StyleBundler

open Script TemplateLiteral Text

namespace Script

/-- The chunks of a template. -/
def TokenKind.chunks? : TokenKind → Option (List String)
  | .template chunks => some chunks
  | _ => none

/-- The chunks of each template among tokens. -/
def templates (ts : List Token) : List (List String) :=
  (ts.map Token.kind).filterMap TokenKind.chunks?

/-- The chunks of each template among lexemes. -/
def chunksOf (ls : List Lexeme) : List (List String) :=
  (ls.filterMap Lexeme.kind).filterMap TokenKind.chunks?

theorem chunksOf_append (a b : List Lexeme) : chunksOf (a ++ b) = chunksOf a ++ chunksOf b := by
  simp only [chunksOf, List.filterMap_append]

/-- No piece is a template. -/
theorem chunksOf_write (ps : List Piece) : chunksOf (Piece.write ps) = [] := by
  induction ps with
  | nil => rfl
  | cons p ps ih => cases p <;> exact ih

theorem templates_eq {source : String} {ls : List Lexeme} (hsource : source.toList = spell ls)
    (h : Chain none ls []) : templates (tokenize source) = chunksOf ls := by
  have hread := lexemes_chain h
  rw [List.append_nil, ← hsource, lexemes, List.append_nil] at hread
  rw [templates, tokenize, map_kind_place, hread, chunksOf]

end Script

namespace Exported

namespace SheetExport

/-- The content of the sheet that an export constructs. -/
def content? : SheetExport → Option String
  | constructed _ content => some content
  | renamed .. => none

/-- The names in the text of an export. -/
def names : SheetExport → List String
  | constructed name _ => [name]
  | renamed first name => [first, name]

/-- What is written in front of the content of a sheet. -/
def openingPieces (name : String) : List Piece :=
  [Piece.word "const", .blank ' '] ++ Piece.word name :: ([Piece.blank ' ', .sign '=', .blank ' ',
    .word "new", .blank ' ', .word "CSSStyleSheet", .sign '(', .sign ')', .sign ';'] ++
      Piece.word name :: [.sign '.', .word "replaceSync", .sign '('])

/-- What is written behind the content of a sheet. -/
def closingPieces (name : String) : List Piece :=
  [Piece.sign ')', .sign ';', .word "export", .blank ' ', .sign '\x7b', .blank ' '] ++
    Piece.word name :: [.blank ' ', .sign '\x7d', .sign ';', .blank '\n', .blank '\n']

/-- What is written to give a sheet another name. -/
def renamePieces (first name : String) : List Piece :=
  [Piece.word "export", .blank ' ', .sign '\x7b', .blank ' '] ++ Piece.word first ::
    ([Piece.blank ' ', .word "as", .blank ' '] ++
      Piece.word name :: [.blank ' ', .sign '\x7d', .sign ';', .blank '\n'])

theorem sound_openingPieces {name : String} (h : IsName name.toList) :
    ∀ p ∈ openingPieces name, p.Sound := by
  refine List.forall_mem_append.mpr ⟨?_, List.forall_mem_cons.mpr ⟨h, ?_⟩⟩
  · decide
  · refine List.forall_mem_append.mpr ⟨?_, List.forall_mem_cons.mpr ⟨h, ?_⟩⟩ <;> decide

theorem sound_closingPieces {name : String} (h : IsName name.toList) :
    ∀ p ∈ closingPieces name, p.Sound := by
  refine List.forall_mem_append.mpr ⟨?_, List.forall_mem_cons.mpr ⟨h, ?_⟩⟩ <;> decide

theorem sound_renamePieces {first name : String} (hfirst : IsName first.toList)
    (hname : IsName name.toList) : ∀ p ∈ renamePieces first name, p.Sound := by
  refine List.forall_mem_append.mpr ⟨?_, List.forall_mem_cons.mpr ⟨hfirst, ?_⟩⟩
  · decide
  · refine List.forall_mem_append.mpr ⟨?_, List.forall_mem_cons.mpr ⟨hname, ?_⟩⟩ <;> decide

/-- The lexemes that an export is written with. -/
def lexemes : SheetExport → List Lexeme
  | constructed name content =>
      Piece.write (openingPieces name) ++
        ⟨some (.template [escapeText content]), '\x60' :: (escape content.toList ++ ['\x60'])⟩ ::
          Piece.write (closingPieces name)
  | renamed first name => Piece.write (renamePieces first name)

theorem toList_text (x : SheetExport) : x.text.toList = spell x.lexemes := by
  cases x with
  | constructed name content =>
      simp [text, lexemes, openingPieces, closingPieces, Piece.lexeme, escapeText,
        String.toList_append]
  | renamed first name =>
      simp [text, lexemes, renamePieces, Piece.lexeme, String.toList_append]

/-- The text of an export is read as its lexemes, wherever it stands. -/
theorem chain_lexemes {x : SheetExport} (h : ∀ name ∈ x.names, IsName name.toList)
    (prior : Option TokenKind) (ds : List Char) : Chain prior x.lexemes ds := by
  cases x with
  | constructed name content =>
      have hname : IsName name.toList := h name (by simp [names])
      exact (Piece.chain_write (sound_openingPieces hname) rfl prior _).append
        ⟨stands_escapeText _ content _, Piece.chain_write (sound_closingPieces hname) rfl _ ds⟩
  | renamed first name =>
      have hsound := sound_renamePieces (h first (by simp [names])) (h name (by simp [names]))
      exact Piece.chain_write hsound rfl prior ds

theorem chunksOf_lexemes (x : SheetExport) :
    chunksOf x.lexemes = x.content?.toList.map fun content => [escapeText content] := by
  cases x with
  | constructed name content =>
      rw [lexemes, chunksOf_append, chunksOf_write, List.nil_append]
      exact congrArg ([escapeText content] :: ·) (chunksOf_write (closingPieces name))
  | renamed first name => exact chunksOf_write (renamePieces first name)

end SheetExport

/-- The lexemes that a module is written with. -/
def lexemesOf (exported : List SheetExport) : List Lexeme := exported.flatMap SheetExport.lexemes

theorem toList_source (exported : List SheetExport) :
    (source exported).toList = spell (lexemesOf exported) := by
  rw [source, String.toList_join, List.flatMap_map, spell, lexemesOf, List.flatMap_assoc]
  simp only [SheetExport.toList_text, spell]

theorem chain_lexemesOf {exported : List SheetExport}
    (h : ∀ x ∈ exported, ∀ name ∈ x.names, IsName name.toList) (prior : Option TokenKind)
    (ds : List Char) : Chain prior (lexemesOf exported) ds := by
  induction exported generalizing prior with
  | nil => trivial
  | cons x exported ih =>
      obtain ⟨hx, hexported⟩ := List.forall_mem_cons.mp h
      exact (SheetExport.chain_lexemes hx prior _).append (ih hexported _)

theorem chunksOf_lexemesOf (exported : List SheetExport) :
    chunksOf (lexemesOf exported) =
      (exported.filterMap SheetExport.content?).map fun content => [escapeText content] := by
  induction exported with
  | nil => rfl
  | cons x exported ih =>
      rw [lexemesOf, List.flatMap_cons, ← lexemesOf, chunksOf_append, ih,
        SheetExport.chunksOf_lexemes, List.filterMap_cons]
      cases x.content? <;> rfl

/-- The templates of a module are the contents that it constructs sheets with. -/
theorem templates_source {exported : List SheetExport}
    (h : ∀ x ∈ exported, ∀ name ∈ x.names, IsName name.toList) :
    templates (tokenize (source exported)) =
      (exported.filterMap SheetExport.content?).map fun content => [escapeText content] := by
  rw [templates_eq (toList_source exported) (chain_lexemesOf h none []), chunksOf_lexemesOf]

/-- The entries that construct a sheet, each with its local name: the first contributor for each
reference. -/
def constructors (p : Plan) : List (String × PlannedImport) :=
  (contributors p).filter fun c => firstFor? (contributors p) c.2.reference = some c

theorem content?_exportOf (store : AssetStore) {cs : List (String × PlannedImport)}
    (hnodup : (cs.map Prod.fst).Nodup) {c : String × PlannedImport} (hc : c ∈ cs) :
    (exportOf store cs c).content? =
      if firstFor? cs c.2.reference = some c then some (contentOf store c.2.reference)
      else none := by
  obtain ⟨first, hfirst⟩ := exists_firstFor? hc
  have hsame : first.1 = c.1 ↔ first = c :=
    ⟨List.inj_on_of_nodup_map hnodup (List.mem_of_find?_eq_some hfirst) hc, congrArg Prod.fst⟩
  simp only [exportOf, hfirst, Option.map_some, Option.getD_some, hsame, Option.some.injEq]
  split <;> rfl

/-- A module constructs one sheet for each reference. -/
theorem contents_sheetExports (store : AssetStore) (p : Plan) :
    (sheetExports store p).filterMap SheetExport.content? =
      (constructors p).map fun c => contentOf store c.2.reference := by
  rw [sheetExports_eq, List.filterMap_map, constructors, ← List.filterMap_eq_map,
    List.filterMap_filter]
  refine List.filterMap_congr fun c hc => ?_
  rw [Function.comp_apply, content?_exportOf store (nodup_contributors p) hc]
  simp only [decide_eq_true_eq, Function.comp_apply]

theorem mem_names_exportOf {store : AssetStore} {cs : List (String × PlannedImport)}
    {c : String × PlannedImport} (hc : c ∈ cs) {name : String}
    (h : name ∈ (exportOf store cs c).names) : name ∈ cs.map Prod.fst := by
  have hown : c.1 ∈ cs.map Prod.fst := List.mem_map_of_mem hc
  have hfirst : ((firstFor? cs c.2.reference).map Prod.fst).getD c.1 ∈ cs.map Prod.fst := by
    cases hfound : firstFor? cs c.2.reference with
    | none => exact hown
    | some d => exact List.mem_map_of_mem (List.mem_of_find?_eq_some hfound)
  rw [exportOf] at h
  split at h
  · rwa [List.mem_singleton.mp h]
  · rcases List.mem_pair.mp h with rfl | rfl
    · exact hfirst
    · exact hown

theorem isName_of_mem_sheetExports {store : AssetStore} {p : Plan} (hnamed : p.IsNamed) :
    ∀ x ∈ sheetExports store p, ∀ name ∈ x.names, IsName name.toList := by
  intro x hx name hname
  rw [sheetExports_eq] at hx
  obtain ⟨c, hc, rfl⟩ := List.mem_map.mp hx
  have hexported : ∀ name ∈ (sheetExports store p).map SheetExport.name, IsName name.toList :=
    isName_of_mem_names hnamed
  rw [names_sheetExports] at hexported
  exact hexported name (mem_names_exportOf hc hname)

/-- The sheets of a generated module stand in it as templates, one for each reference that a unit
reads, with their contents escaped: a text that is escaped, which is by three replacements, is one
template between backticks, and its escapes can be undone. -/
theorem unescape_templates :
    (∀ (store : AssetStore) (code : String), (Plan.scan store code).IsNamed ∧
      ∀ e ∈ Plan.scan store code, ∃ own, store.referenced? e.reference = some own ∧
        contentOf store e.reference = own.content) ∧
    (∀ (store : AssetStore) (p : Plan) (packed : Artifact), p.IsNamed →
      artifact? store p = some packed →
      let contents := (constructors p).map fun c => contentOf store c.2.reference
      (sheetExports store p).filterMap SheetExport.content? = contents ∧
      ∃ ts, tokenizeBytes packed.source = some ts ∧
        (templates ts).map (List.map unescapeText) = contents.map fun c => [c]) ∧
    ∀ s : String,
      let source := "\x60" ++ escapeText s ++ "\x60"
      tokenizeBytes source =
        some [⟨.template [escapeText s], ⟨0, byteLength source.toList⟩⟩] ∧
      escapeText s = replaceAll "$\x7b" "\\$\x7b"
        (replaceAll "\x60" "\\\x60" (replaceAll "\\" "\\\\" s)) ∧
      unescapeText (escapeText s) = s := by
  refine ⟨fun store code => ⟨Plan.isNamed_scan store code, fun e he => ?_⟩, ?_, fun s => ?_⟩
  · obtain ⟨own, howned⟩ := Plan.exists_referenced he
    exact ⟨own, howned, by rw [contentOf, howned]; rfl⟩
  · intro store p packed hnamed hpacked contents
    have hcontents : (sheetExports store p).filterMap SheetExport.content? = contents :=
      contents_sheetExports store p
    refine ⟨hcontents, tokenize packed.source, tokenizeBytes_eq _, ?_⟩
    rw [source_of_artifact? hpacked, templates_source (isName_of_mem_sheetExports hnamed),
      hcontents, List.map_map]
    refine List.map_congr_left fun content _ => ?_
    rw [Function.comp_apply, List.map_singleton, unescapeText_escapeText]
  · intro source
    refine ⟨?_, escapeText_eq s, unescapeText_escapeText s⟩
    have hsource : source.toList = '\x60' :: (escape s.toList ++ ['\x60']) := by
      simp [source, escapeText]
    have hread := readTemplate_escaped s.toList []
    rw [tokenizeBytes_eq, tokenize, hsource, lexemes_template hread]
    simp [place, escapeText]

/-- A unit that reads two sheets, one of them by two names, and all that has to be escaped. -/
theorem unescape_templates_twice :
    let sheet := "i\x7bcontent:'\\2014 \x60$\x7bx\x7d$'\x7d"
    let store := ((AssetStore.empty true).fill (.ofContent true ⟨"/a.css"⟩ sheet)).fill
      (.ofContent true ⟨"/b.css"⟩ ".b\x7b\x7d")
    let code := "import a from './__sheetpack_styles-8454e13c.css' with \x7b type: 'css' \x7d;\n" ++
      "import * as n from './__sheetpack_styles-48672fc3.css' with \x7b type: 'css' \x7d;\n" ++
      "import('./__sheetpack_styles-8454e13c.css', \x7b with: \x7b type: 'css' \x7d \x7d);\n"
    (Plan.scan store code).IsNamed ∧
      ∃ packed, artifact? store (Plan.scan store code) = some packed ∧
        ∃ ts, tokenizeBytes packed.source = some ts ∧
          (templates ts).map (List.map unescapeText) = [[sheet], [".b\x7b\x7d"]] := by
  intro sheet store code
  have ha : Digest.shortHashText sheet = "8454e13c" := by decide +kernel
  have hb : Digest.shortHashText ".b\x7b\x7d" = "48672fc3" := by decide +kernel
  have hstore : store = ((AssetStore.empty true).fill
        ⟨⟨"/a.css"⟩, "8454e13c", Asset.nameOf true "8454e13c", sheet⟩).fill
      ⟨⟨"/b.css"⟩, "48672fc3", Asset.nameOf true "48672fc3", ".b\x7b\x7d"⟩ := by
    simp only [store, Asset.ofContent, ha, hb]
  have hscan : Plan.scan store code =
      [⟨.static (some "a") none, "./__sheetpack_styles-8454e13c.css", ⟨0, 71⟩⟩,
        ⟨.static none (some "n"), "./__sheetpack_styles-48672fc3.css", ⟨72, 148⟩⟩,
        ⟨.dynamic none false, "./__sheetpack_styles-8454e13c.css", ⟨149, 219⟩⟩] := by
    -- the signs of the literals are at hand; those of the whole text would have to be decoded
    rw [hstore, Plan.scan, Script.importNodes, Script.tokenize, String.toList_append,
      String.toList_append, String.toList_ofList, String.toList_ofList, String.toList_ofList]
    decide +kernel
  obtain ⟨hall, hread, -⟩ := unescape_templates
  have hnamed := (hall store code).1
  obtain ⟨packed, hpacked⟩ : ∃ packed, artifact? store (Plan.scan store code) = some packed := by
    rw [← Option.isSome_iff_exists, isSome_artifact?_iff, hscan]
    exact ⟨_, List.mem_cons_self, by decide⟩
  obtain ⟨-, ts, hts, htemplates⟩ := hread store _ packed hnamed hpacked
  refine ⟨hnamed, packed, hpacked, ts, hts, ?_⟩
  rw [htemplates, hscan, hstore]
  decide +kernel

end Exported

end StyleBundler
