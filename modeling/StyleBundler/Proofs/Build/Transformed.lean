import StyleBundler.Build
import StyleBundler.Proofs.Hook.Rewriting

/-!
The transform of all modules of a build. Its hooks are those for stylesheets alone
(`start_pipeline`), and they stay in agreement with what was published (`Agrees`). Each module
becomes what its own source and path give, and what was published is what the sites of the
modules import, no more and no less (`isRewritten_of_transformAll`).
-/

namespace StyleBundler.Build

open Hook

variable {t : FileTree} {f : ContentTransform} {c : Config} {r : BuildRequest}

/-- The options of the hooks of a build. Stylesheets are minified by a tool of its own, which `f`
stands for. -/
def optionsOf (f : ContentTransform) (c : Config) (r : BuildRequest) : StyleOptions :=
  { c.styleOptions with
    transform := c.css.transform.map fun _ => f
    bundle := r.bundle.or c.css.bundle }

/-- The hooks of a build, when it has started. -/
def started (f : ContentTransform) (c : Config) (r : BuildRequest) : Pipeline :=
  ⟨[.stylesheets (.ofOptions (optionsOf f c r))], .empty⟩

theorem start_pipeline (c : Config) (r : BuildRequest) :
    (pipeline c r).start = (.ok (), started .minify c r) := rfl

/-- The hooks are those for stylesheets, and agree with what was published. -/
def Agrees (t : FileTree) (o : StyleOptions) (assets : List Asset) (p : Pipeline) : Prop :=
  ∃ s : Stylesheets, p.plugins = [.stylesheets s] ∧ s.options = o ∧
    Agree t o assets s.store p.context.bundle

theorem Agrees.started (t : FileTree) (f : ContentTransform) (c : Config) (r : BuildRequest) :
    Agrees t (optionsOf f c r) [] (started f c r) :=
  ⟨_, rfl, rfl, .empty t (optionsOf f c r)⟩

variable {o : StyleOptions} {assets : List Asset} {p p' : Pipeline}

/-- The asset is one that a site of the module imports. -/
def IsImportedBy (t : FileTree) (o : StyleOptions) (n : ModuleNode) (a : Asset) : Prop :=
  ∃ site ∈ sitesOf o n.module.path n.module.source, assetFor t o n.module.path site = .ok a

/-- What the hooks make of a module. -/
def IsRewritten (t : FileTree) (o : StyleOptions) (n n' : ModuleNode) : Prop :=
  ∃ change, rewriting t o n.module.path n.module.source = .ok change ∧
    n' = { n with module :=
      { n.module with transformed := some (change.codeFor n.module.source) } }

theorem rewriting_of_transform (h : Agrees t o assets p) {code code' : String}
    {path : Path} {map : Option String} (htransform : p.transform t code path = (.ok (code', map), p')) :
    ∃ change, rewriting t o path code = .ok change ∧ code' = change.codeFor code ∧
      ∃ more, Agrees t o (assets ++ more) p' ∧
        (∀ a ∈ more, ∃ site ∈ sitesOf o path code, assetFor t o path site = .ok a) ∧
        ∀ site ∈ sitesOf o path code, ∃ a ∈ assets ++ more, assetFor t o path site = .ok a := by
  obtain ⟨s, hp, rfl, hagree⟩ := h
  rw [Pipeline.transform, hp, Plugin.transformEach, Plugin.transform] at htransform
  have hoptions := Stylesheets.options_transform s t p.context code path
  cases hresult : s.transform t p.context code path with
  | mk result rest =>
      obtain ⟨s', c'⟩ := rest
      rw [hresult] at htransform hoptions
      cases result with
      | error e => cases htransform
      | ok change =>
          obtain ⟨hrewriting, more, hmore⟩ := Stylesheets.rewriting_of_transform hagree hresult
          cases change with
          | skip =>
              cases htransform
              exact ⟨.skip, hrewriting, rfl, more, ⟨s', rfl, hoptions, hmore.1⟩, hmore.2⟩
          | changed code'' map' =>
              cases htransform
              exact ⟨.changed _ _, hrewriting, rfl, more, ⟨s', rfl, hoptions, hmore.1⟩, hmore.2⟩

theorem isRewritten_of_transformNodes {nodes nodes' : List ModuleNode} (h : Agrees t o assets p)
    (htransform : transformNodes t p nodes = .ok (nodes', p')) :
    List.Forall₂ (IsRewritten t o) nodes nodes' ∧
      ∃ more, Agrees t o (assets ++ more) p' ∧
        (∀ a ∈ more, ∃ n ∈ nodes, IsImportedBy t o n a) ∧
        ∀ n ∈ nodes, ∀ site ∈ sitesOf o n.module.path n.module.source,
          ∃ a ∈ assets ++ more, assetFor t o n.module.path site = .ok a := by
  induction nodes generalizing p assets nodes' with
  | nil =>
      cases htransform
      refine ⟨.nil, [], ?_, by simp, by simp⟩
      rwa [List.append_nil]
  | cons n nodes ih =>
      rw [transformNodes] at htransform
      cases hn : p.transform t n.module.source n.module.path with
      | mk result p₁ =>
          rw [hn] at htransform
          cases result with
          | error e => cases htransform
          | ok r =>
              obtain ⟨change, hchange, hcode, more₁, hagree₁, himported₁, hall₁⟩ :=
                rewriting_of_transform h hn
              simp only [bind_eq_ok_iff] at htransform
              obtain ⟨⟨rest, p₂⟩, hrest, htransform⟩ := htransform
              cases htransform
              obtain ⟨hrewritten, more₂, hagree₂, himported₂, hall₂⟩ := ih hagree₁ hrest
              rw [List.append_assoc] at hagree₂
              refine ⟨.cons ⟨change, hchange, by rw [hcode]⟩ hrewritten, more₁ ++ more₂,
                hagree₂, fun a ha => ?_, fun n' hn' site hsite => ?_⟩
              · obtain ha | ha := List.mem_append.mp ha
                · exact ⟨n, List.mem_cons_self, himported₁ a ha⟩
                · obtain ⟨n', hn', hsite⟩ := himported₂ a ha
                  exact ⟨n', List.mem_cons_of_mem _ hn', hsite⟩
              · rw [← List.append_assoc]
                obtain rfl | hn' := List.mem_cons.mp hn'
                · obtain ⟨a, ha, hasset⟩ := hall₁ site hsite
                  exact ⟨a, List.mem_append_left _ ha, hasset⟩
                · exact hall₂ n' hn' site hsite

/-- Transforming all modules of a build rewrites each of them as its own source and path say, and
publishes what their sites import. -/
theorem isRewritten_of_transformAll {g g' : ModuleGraph}
    (h : transformAll t (started f c r) g = .ok (g', p')) :
    List.Forall₂ (IsRewritten t (optionsOf f c r)) g.nodes g'.nodes ∧
      ∃ assets, Agrees t (optionsOf f c r) assets p' ∧
        (∀ a, a ∈ assets ↔ ∃ n ∈ g.nodes, IsImportedBy t (optionsOf f c r) n a) ∧
        ∀ n ∈ g.nodes, ∀ site ∈ sitesOf (optionsOf f c r) n.module.path n.module.source,
          ∃ a ∈ assets, assetFor t (optionsOf f c r) n.module.path site = .ok a := by
  unfold transformAll at h
  dsimp only at h
  split at h
  · cases h
  · obtain ⟨result, hnodes, heq⟩ := map_eq_ok_iff.mp h
    cases heq
    obtain ⟨hrewritten, assets, hagree, himported, hall⟩ :=
      isRewritten_of_transformNodes (.started t f c r) hnodes
    rw [List.nil_append] at hagree hall
    refine ⟨hrewritten, assets, hagree, fun a => ⟨himported a, ?_⟩, hall⟩
    intro hsite
    obtain ⟨n, hn, site, hmem, hasset⟩ := hsite
    obtain ⟨b, hb, hother⟩ := hall n hn site hmem
    rw [hasset, Except.ok.injEq] at hother
    rwa [hother]

theorem exists_transform_of_rewriting (h : Agrees t o assets p) {code : String} {path : Path}
    {change : Change} (hchange : rewriting t o path code = .ok change) :
    ∃ r p', p.transform t code path = (.ok r, p') := by
  obtain ⟨s, hp, rfl, hagree⟩ := h
  obtain ⟨s', c', htransform⟩ := Stylesheets.transform_of_rewriting hagree hchange
  rw [Pipeline.transform, hp, Plugin.transformEach, Plugin.transform, htransform]
  cases change with
  | skip => exact ⟨_, _, rfl⟩
  | changed code' map => exact ⟨_, _, rfl⟩

theorem earlyFailure?_of_rewriting (h : Agrees t o assets p) {code : String} {path : Path}
    {change : Change} (hchange : rewriting t o path code = .ok change) :
    p.earlyFailure? t code path = none := by
  obtain ⟨s, hp, rfl, -⟩ := h
  obtain ⟨expected, hall, -⟩ := Stylesheets.exists_forall₂_of_rewriting hchange
  obtain ⟨hlocate, -⟩ := Stylesheets.locate_of_forall₂ hall
  rw [Pipeline.earlyFailure?, hp, Plugin.earlyFailure?]
  split
  · rfl
  · have hearly : s.earlyFailure? t path (sitesOf s.options path code) = none := by
      rw [Stylesheets.earlyFailure?, hlocate, Stylesheets.early?, ite_self]
    exact congrArg (Option.map Failure.style) hearly

theorem exists_transformNodes_of_rewriting {nodes : List ModuleNode} (h : Agrees t o assets p)
    (hall : ∀ n ∈ nodes, ∃ change, rewriting t o n.module.path n.module.source = .ok change) :
    ∃ result, transformNodes t p nodes = .ok result := by
  induction nodes generalizing p assets with
  | nil => exact ⟨_, rfl⟩
  | cons n nodes ih =>
      obtain ⟨⟨change, hchange⟩, hrest⟩ := List.forall_mem_cons.mp hall
      obtain ⟨⟨code, map⟩, p₁, hn⟩ := exists_transform_of_rewriting h hchange
      obtain ⟨-, -, -, more, hagree, -⟩ := rewriting_of_transform h hn
      obtain ⟨rest, hrest⟩ := ih hagree hrest
      rw [transformNodes, hn]
      simp only [hrest, bind, Except.bind]
      exact ⟨_, rfl⟩

/-- Where every module can be rewritten, all of them are. -/
theorem exists_transformAll_of_rewriting {g : ModuleGraph}
    (hall : ∀ n ∈ g.nodes, ∃ change,
      rewriting t (optionsOf f c r) n.module.path n.module.source = .ok change) :
    ∃ g' p', transformAll t (started f c r) g = .ok (g', p') := by
  have hearly : (g.nodes.findSome? fun n =>
      ((started f c r).earlyFailure? t n.module.source n.module.path).map
        (Failure.transforming n.module.path)) = none := by
    rw [List.findSome?_eq_none_iff]
    intro n hn
    obtain ⟨change, hchange⟩ := hall n hn
    rw [earlyFailure?_of_rewriting (.started t f c r) hchange, Option.map_none]
  obtain ⟨result, hresult⟩ := exists_transformNodes_of_rewriting (.started t f c r) hall
  unfold transformAll
  dsimp only
  rw [hearly, ite_self, hresult]
  exact ⟨_, _, rfl⟩

end StyleBundler.Build
