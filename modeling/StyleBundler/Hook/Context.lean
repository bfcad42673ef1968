import StyleBundler.Asset
import StyleBundler.Import.Classification
import StyleBundler.Output

/-!
What all hooks of one build share, and what they answer.
-/

namespace StyleBundler.Hook

structure Context where
  bundle : OutputBundle
  /-- Everything that was reported, in order. -/
  diagnostics : List Import.Diagnostic
  /-- How often content transforms were run. -/
  transformRuns : Nat
deriving DecidableEq, Repr, Inhabited

namespace Context

def empty : Context := ⟨[], [], 0⟩

def emit (c : Context) (name : String) (kind : OutputKind) (source : String) : Context :=
  { c with bundle := Listing.insert name ⟨kind, source⟩ c.bundle }

def emitAsset (c : Context) (name source : String) : Context := c.emit name .asset source

/-- Publishes stylesheets. -/
def publish (c : Context) (assets : List Asset) : Context :=
  assets.foldl (fun c a => c.emitAsset a.name a.content) c

def report (c : Context) (found : List Import.Diagnostic) : Context :=
  { c with diagnostics := c.diagnostics ++ found }

end Context

/-- Up to so many jobs that start together, all of them end with the first failure that
shows. Of more the outcomes are taken in order, and a failure counts when its turn comes. -/
def jointLimit : Nat := 30

/-- What a resolving hook says about a specifier. -/
inductive Resolution where
  /-- Nothing: the next one is asked. -/
  | skip
  /-- It is not part of the build. -/
  | external
  | resolved (path : Path)
deriving DecidableEq, Repr, Inhabited

/-- What a hook makes of a code. -/
inductive Change where
  /-- Nothing. -/
  | skip
  /-- New code, with the text of a source map if there is one. -/
  | changed (code : String) (map : Option String)
deriving DecidableEq, Repr, Inhabited

end StyleBundler.Hook
