import StyleBundler.Asset.Store
import StyleBundler.Hook.Context
import StyleBundler.Options
import StyleBundler.Pack.Unit
import StyleBundler.Resolve
import StyleBundler.SourceMap.Mapping

/-!
The hooks that load stylesheets. A module's stylesheet imports are turned into imports
of published assets; an output unit's imports of assets are packed, if the options ask
for it, and what was only staged for packing is dropped in the end.
-/

namespace StyleBundler.Hook

/-- The options of the hooks, and the store of the current build. -/
structure Stylesheets where
  options : StyleOptions
  store : AssetStore
deriving Inhabited

namespace Stylesheets

def ofOptions (o : StyleOptions) : Stylesheets := ⟨o, .empty o.bundle.isSome⟩

/-- Starts a build with an empty store. -/
def start (s : Stylesheets) : Stylesheets := ofOptions s.options

def resolve (specifier : String) : Resolution :=
  if specifier.endsWith ".css" then .external else .skip

def sites (cs : List Import.Classification) : List Import.Site :=
  cs.filterMap fun c =>
    match c with
    | .css site => some site
    | _ => none

def diagnostics (cs : List Import.Classification) : List Import.Diagnostic :=
  cs.filterMap fun c =>
    match c with
    | .unsupported d => some d
    | _ => none

/-- The files that the sites of a module lead to. -/
structure Located where
  /-- Those of the sites before the first that leads nowhere. -/
  paths : List Path
  /-- Why that one leads nowhere. -/
  failure : Option StyleError
  /-- Those of the sites behind it. -/
  further : List Path
deriving DecidableEq, Repr

def Located.ofList : List (Except StyleError Path) → Located
  | [] => ⟨[], none, []⟩
  | .error e :: rest => ⟨[], some e, rest.filterMap Except.toOption⟩
  | .ok path :: rest =>
      let located := ofList rest
      { located with paths := path :: located.paths }

def locate (t : FileTree) (importer : Path) (found : List Import.Site) : Located :=
  .ofList (found.map fun site => Resolve.stylesheet t site.specifier importer)

/-- The failure that shows before a stylesheet is read. The loads of a module start
together, so that a site that leads nowhere ends them all at once; but among too many
its turn comes only behind the loads before it. -/
def early? (s : Stylesheets) (found : List Import.Site) (l : Located) : Option StyleError :=
  if found.length ≤ jointLimit || l.paths.all (fun p => (s.store.loaded? p).isSome) then
    l.failure
  else none

/-- The edits that make each site import its asset. -/
def edits (found : List (Import.Site × Asset)) : Edits :=
  found.foldl (fun s (site, a) => s.overwrite site.span ("'" ++ a.reference ++ "'"))
    Edits.empty

/-- The edited code of a module, with its source map. -/
def apply (moduleId code : String) (e : Edits) : Except StyleError Change :=
  match e.apply code.toList with
  | .error cause => .error (.edit cause)
  | .ok none => .ok .skip
  | .ok (some r) =>
      .ok (.changed (String.ofList r.code)
        (some (SourceMap.json moduleId code (SourceMap.mappings code.toList r))))

/-- The failure of a module that shows before a stylesheet is read. -/
def earlyFailure? (s : Stylesheets) (t : FileTree) (path : Path) (found : List Import.Site) :
    Option StyleError :=
  s.early? found (locate t path found)

/-- Loads the stylesheets that the sites of a module import, and redirects the sites to them. -/
def load (s : Stylesheets) (t : FileTree) (c : Context) (code : String) (path : Path)
    (found : List Import.Site) : Except StyleError Change × Stylesheets × Context :=
  let located := locate t path found
  match s.early? found located with
  | some e => (.error e, { s with store := s.store.reserveAll located.paths }, c)
  | none =>
      let store := s.store.reserveAll (located.paths ++ located.further)
      let outcome := store.loadEach t s.options.transform located.paths
      let c := { c.publish outcome.published with
        transformRuns := c.transformRuns + outcome.transformRuns }
      let result := outcome.result.bind fun assets =>
        match located.failure with
        | some e => .error e
        | none => apply path.moduleId code (edits (found.zip assets))
      (result, { s with store := outcome.store }, c)

/-- Redirects the stylesheet imports of a module to assets. Computed ones are reported, also when
loading the others fails. -/
def transform (s : Stylesheets) (t : FileTree) (c : Context) (code : String) (path : Path) :
    Except StyleError Change × Stylesheets × Context :=
  let classes := Import.classifyModule s.options.ignoredSchemes code path.moduleId
  let c := c.report (diagnostics classes)
  match sites classes with
  | [] => (.ok .skip, s, c)
  | found => s.load t c code path found

/-- Packs the stylesheets of an output unit and publishes the artifact. -/
def render (s : Stylesheets) (c : Context) (code : String) :
    Except StyleError Change × Context :=
  match s.options.bundle with
  | none => (.ok .skip, c)
  | some mode =>
      match PackedUnit.ofCode s.store mode s.options.keyword code with
      | .error cause => (.error (.edit cause), c)
      | .ok none => (.ok .skip, c)
      | .ok (some packed) =>
          let c :=
            match packed.artifact with
            | some a => c.emitAsset a.name a.source
            | none => c
          (.ok (.changed packed.code none), c)

/-- Drops the staged assets from the files to write. -/
def generate (s : Stylesheets) (b : OutputBundle) : OutputBundle :=
  match s.options.bundle with
  | none => b
  | some _ => OutputBundle.dropMarked Asset.stagingMark b

end Stylesheets
end StyleBundler.Hook
