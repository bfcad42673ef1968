import StyleBundler.Proofs.Import.Attributes
import StyleBundler.Proofs.Pack.Rescan

/-!
The statement in front of a packed unit. Whatever stands behind it, it is read as a declaration of
the artifact, so the first import of a unit that has an artifact names that artifact
(`PackedUnit.exists_head?_importNodes`).
-/

namespace StyleBundler

open Script

namespace Script

/-- The first node of a text whose lexemes in front start with a node. -/
theorem head?_importNodes {text : String} {ls : List Lexeme} {rest : List Char}
    (htext : text.toList = spell ls ++ rest) (hchain : Chain none ls rest) {t : Token}
    {ts : List Token} (hplace : place 0 ls = t :: ts) {source : String}
    (h : ∀ more, ∃ d, importNodeAt? [] t (ts ++ more) = some (.declaration d) ∧
      d.source = source) :
    ∃ d, (importNodes text).head? = some (.declaration d) ∧ d.source = source := by
  rw [importNodes, tokenize, htext, lexemes_chain hchain, place_append, hplace, List.cons_append]
  obtain ⟨d, hd, hsource⟩ :=
    h (place (0 + Text.byteLength (spell ls)) (lexemes (lastKind none ls) rest))
  exact ⟨d, by rw [importNodesFrom, hd]; rfl, hsource⟩

/-- A declaration is read at an `import` that a clause with a specifier follows. -/
theorem exists_importNodeAt?_of_readClause? {t next : Token} {ts rest : List Token}
    {bound : ClauseBindings} {source : String} {span : Span} (ht : t.kind = .ident "import")
    (hcall : next.kind ≠ .punct '(') (hdot : next.kind ≠ .punct '.')
    (hread : readClause? (next :: ts) = some (bound, source, span, rest))
    (hattributes : ∃ attributes, attributes? rest = some attributes) :
    ∃ d, importNodeAt? [] t (next :: ts) = some (.declaration d) ∧ d.source = source := by
  obtain ⟨attributes, hattributes⟩ := hattributes
  simp [importNodeAt?, Token.isIdent, Token.isPunct, ht, hcall, hdot, declaration?_eq, hread,
    hattributes]

/-- An attribute clause that asks for a stylesheet is read. -/
theorem exists_attributes?_css {word brace key colon value close : Token}
    {keyword : AttributeKeyword} (hword : word.kind = .ident keyword.text)
    (hbrace : brace.kind = .punct '\x7b') (hkey : key.kind = .ident "type")
    (hcolon : colon.kind = .punct ':') (hvalue : value.kind = .str "css")
    (hclose : close.kind = .punct '\x7d') (rest : List Token) :
    ∃ attributes, attributes? (word :: brace :: key :: colon :: value :: close :: rest) =
      some attributes := by
  have hkinds : [word, brace, key, colon, value, close].map Token.kind =
      (AttributeClause.mk keyword [⟨.word "type", "css"⟩] false).kinds := by
    simp [hword, hbrace, hkey, hcolon, hvalue, hclose, AttributeClause.kinds,
      AttributeEntry.listKinds, AttributeEntry.kinds, AttributeKey.kind]
  obtain ⟨found, -, hread, -⟩ := exists_attributes?_of_kinds hkinds rest
  exact ⟨_, hread⟩

end Script

namespace Combined

variable {text name : String} {keyword : AttributeKeyword} {rest : List Char}

/-- Behind the statement that loads it anything can stand. -/
theorem exists_head?_importNodes (hplain : name.toList.all Lexer.isPlain = true)
    (htext : text.toList = (loadStatement name keyword).toList ++ rest) :
    ∃ d, (importNodes text).head? = some (.declaration d) ∧ d.source = "./" ++ name := by
  rw [← spell_loadPieces] at htext
  refine head?_importNodes htext (chain_loadPieces hplain keyword none rest) rfl fun more => ?_
  exact exists_importNodeAt?_of_readClause? rfl (by simp) (by simp) rfl
    (exists_attributes?_css rfl rfl rfl rfl rfl rfl _)

end Combined

namespace Exported

variable {text artifact : String} {names : List String} {rest : List Char}

theorem exists_head?_importNodes (hnames : ∀ name ∈ names, IsName name.toList)
    (hplain : artifact.toList.all Lexer.isPlain = true)
    (htext : text.toList = (loadStatement names artifact).toList ++ rest) :
    ∃ d, (importNodes text).head? = some (.declaration d) ∧ d.source = "./" ++ artifact := by
  rw [← spell_loadPieces] at htext
  have hplace : ∃ bracket close keyword source stop : Token,
      place 0 (Piece.write (loadPieces names artifact)) = ⟨.ident "import", ⟨0, 6⟩⟩ :: bracket ::
        (place 9 (Piece.write (Piece.listed names)) ++ [close, keyword, source, stop]) ∧
      bracket.kind = .punct '\x7b' ∧ close.kind = .punct '\x7d' ∧ keyword.kind = .ident "from" ∧
      source.kind = .str ("./" ++ artifact) ∧ stop.kind = .punct ';' := by
    rw [loadPieces, Piece.write_append, Piece.write_append, place_append, place_append]
    exact ⟨_, _, _, _, _, rfl, rfl, rfl, rfl, rfl, rfl⟩
  obtain ⟨bracket, close, keyword, source, stop, hplace, hbracket, hclose, hkeyword, hsource,
    hstop⟩ := hplace
  refine head?_importNodes htext (chain_loadPieces hnames hplain none rest) hplace fun more => ?_
  -- What a clause passes over is the same for every store.
  have hlisted : Plan.Inert (AssetStore.empty true) (place 9 (Piece.write (Piece.listed names))) :=
    .listed 9
  obtain ⟨found, hclause⟩ := hlisted.readClause?_load hbracket hclose hkeyword hsource more
  exact exists_importNodeAt?_of_readClause? rfl (by simp [hbracket]) (by simp [hbracket]) hclause
    ⟨_, attributes?_cons_other (by simp [hstop]) more⟩

end Exported

namespace PackedUnit

/-- The first import of a packed unit is that of its artifact. -/
theorem exists_head?_importNodes {store : AssetStore} {mode : PackMode}
    {keyword : AttributeKeyword} {code : String} {u : PackedUnit} {a : Artifact}
    (h : ofCode store mode keyword code = .ok (some u)) (ha : u.artifact = some a) :
    ∃ d, (importNodes u.code).head? = some (.declaration d) ∧ d.source = "./" ++ a.name := by
  have hne := scan_ne_nil_of_ofCode h
  cases mode with
  | combined =>
      obtain ⟨hplan, hartifact⟩ := of_ofCode_combined h
      rw [hplan] at hartifact
      obtain rfl := Option.some.inj (ha.symm.trans hartifact)
      obtain ⟨body, -, htext⟩ := Edits.exists_splice_of_applyText (applyText_of_ofCode_combined h)
        (by simp [Edits.isEmpty, Combined.edits_edits, hne])
      rw [Combined.edits_front, String.toList_append, List.append_assoc] at htext
      exact Combined.exists_head?_importNodes (Combined.isPlain_artifact store _) htext
  | exportedModules =>
      obtain ⟨hplan, hartifact, happly⟩ := of_ofCode_exported h
      rw [hplan] at hartifact happly
      have hpacked := hartifact.symm.trans ha
      obtain ⟨body, -, htext⟩ := Edits.exists_splice_of_applyText happly
        (by simp [Edits.isEmpty, Exported.edits_edits, hne])
      rw [Exported.edits_front hpacked, String.toList_append, List.append_assoc] at htext
      exact Exported.exists_head?_importNodes
        (Exported.isName_of_mem_names fun e he => Plan.isName_of_mem_scan he)
        (Exported.isPlain_of_artifact? hpacked) htext

end PackedUnit

end StyleBundler
