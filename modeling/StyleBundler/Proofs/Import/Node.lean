import StyleBundler.Proofs.Script.Redirection

/-!
What becomes of an import node is decided by whether it imports a stylesheet and by its
specifier (`classify_eq_css_iff`); moving the node changes neither.
-/

namespace StyleBundler.Script

open Import

namespace ImportNode

/-- The node imports a stylesheet. -/
def isCss : ImportNode → Bool
  | .declaration d => isCssDeclaration d
  | .call c => (cssKeyword? c).isSome

def importKind : ImportNode → ImportKind
  | .declaration d => .static d.defaultBinding
  | .call c => .dynamic (c.binding.map (·.name)) (c.binding.any (·.awaited))

theorem classify_eq (schemes : List String) (source moduleId : String) (n : ImportNode) :
    classify schemes source moduleId n =
      if n.isCss then classifySpecifier schemes source moduleId n.importKind n.specifier n.span
      else .notCss := by
  cases n <;> rfl

theorem literal?_of_specifierText? {e : Expr} {text : String} (h : specifierText? e = some text) :
    ∃ kind, e.literal? = some kind := by
  cases e with
  | str s value => exact ⟨_, rfl⟩
  | template s chunks => exact ⟨_, rfl⟩
  | _ => cases h

/-- A node is a site when it imports a stylesheet by a known specifier that is under no ignored
scheme. -/
theorem classify_eq_css_iff {schemes : List String} {source moduleId : String} {n : ImportNode}
    {site : Site} :
    classify schemes source moduleId n = .css site ↔
      n.isCss = true ∧ specifierText? n.specifier = some site.specifier ∧
        Url.isUnder schemes site.specifier = false ∧
        site = ⟨n.importKind, .of n.specifier, site.specifier, n.specifier.span, moduleId⟩ := by
  rw [classify_eq]
  cases n.isCss with
  | false => simp
  | true =>
      simp only [if_true, classifySpecifier, true_and]
      cases specifierText? n.specifier with
      | none => simp
      | some text =>
          simp only [Option.some.injEq]
          constructor
          · intro h
            split at h
            · cases h
            · next hscheme =>
                cases h
                exact ⟨rfl, Bool.not_eq_true _ ▸ hscheme, rfl⟩
          · rintro ⟨rfl, hscheme, hsite⟩
            rw [hscheme, if_neg Bool.false_ne_true, ← hsite]

theorem exists_classify_eq_css_iff {schemes : List String} {source moduleId : String}
    {n : ImportNode} :
    (∃ site, classify schemes source moduleId n = .css site) ↔
      n.isCss = true ∧
        ∃ text, specifierText? n.specifier = some text ∧ Url.isUnder schemes text = false := by
  constructor
  · rintro ⟨site, hsite⟩
    obtain ⟨hcss, htext, hscheme, -⟩ := classify_eq_css_iff.mp hsite
    exact ⟨hcss, site.specifier, htext, hscheme⟩
  · rintro ⟨hcss, text, htext, hscheme⟩
    let site : Site := ⟨n.importKind, .of n.specifier, text, n.specifier.span, moduleId⟩
    exact ⟨site, classify_eq_css_iff.mpr ⟨hcss, htext, hscheme, rfl⟩⟩

theorem literal?_of_classify {schemes : List String} {source moduleId : String} {n : ImportNode}
    {site : Site} (h : classify schemes source moduleId n = .css site) :
    n.specifier.span = site.span ∧ ∃ kind, n.specifier.literal? = some kind := by
  obtain ⟨-, htext, -, hsite⟩ := classify_eq_css_iff.mp h
  exact ⟨(congrArg Site.span hsite).symm, literal?_of_specifierText? htext⟩

end ImportNode

theorem asString?_move (f : Nat → Nat) (e : Expr) : (e.move f).asString? = e.asString? := by
  cases e <;> rfl

theorem get?_move (f : Nat → Nat) (o : ObjectLiteral) (key : String) :
    (o.move f).get? key = (o.get? key).map (Expr.move f) := by
  obtain ⟨span, properties⟩ := o
  simp only [ObjectLiteral.get?, ObjectLiteral.move]
  induction properties with
  | nil => rfl
  | cons p properties ih =>
      obtain ⟨name, value⟩ := p
      simp only [moveProperties, List.find?_cons]
      split
      · rfl
      · exact ih

theorem isCssType_move (f : Nat → Nat) (o : ObjectLiteral) :
    isCssType (o.move f) = isCssType o := by
  rw [isCssType, isCssType, get?_move]
  cases o.get? "type" with
  | none => rfl
  | some e => simp only [Option.map_some, Option.bind_some, asString?_move]

theorem cssKeyword?_move (f : Nat → Nat) {c c' : ImportCall}
    (h : c'.options = c.options.map (ObjectLiteral.move f)) : cssKeyword? c' = cssKeyword? c := by
  simp only [cssKeyword?, h]
  cases c.options with
  | none => rfl
  | some o =>
      obtain ⟨span, properties⟩ := o
      simp only [Option.map_some, Option.bind_eq_bind, Option.bind_some, ObjectLiteral.move]
      induction properties with
      | nil => rfl
      | cons p properties ih =>
          obtain ⟨name, value⟩ := p
          simp only [moveProperties, List.findSome?_cons, asObject?_move, ih]
          cases AttributeKeyword.ofText? name with
          | none => rfl
          | some keyword =>
              cases value.asObject? with
              | none => rfl
              | some o => simp only [Option.map_some, Option.bind_some, isCssType_move]

@[simp] theorem ImportNode.isCss_move (f : Nat → Nat) (n : ImportNode) :
    (n.move f).isCss = n.isCss := by
  cases n with
  | declaration d =>
      simp only [move, isCss, isCssDeclaration]
      cases d.attributes with
      | none => rfl
      | some a => exact isCssType_move f a.entries
  | call c => exact congrArg Option.isSome (cssKeyword?_move f rfl)

@[simp] theorem ImportNode.isCss_withSpecifier (value : String) (n : ImportNode) :
    (n.withSpecifier value).isCss = n.isCss := by
  cases n <;> rfl

theorem ImportNode.specifierText?_move (f : Nat → Nat) (n : ImportNode) :
    specifierText? (n.move f).specifier = specifierText? n.specifier := by
  cases n with
  | declaration d => rfl
  | call c =>
      simp only [move, specifier]
      cases c.argument <;> rfl

theorem ImportNode.specifierText?_withSpecifier (value : String) (n : ImportNode) :
    specifierText? (n.withSpecifier value).specifier = some value := by
  cases n <;> rfl

end StyleBundler.Script
