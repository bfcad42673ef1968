import StyleBundler.Asset
import StyleBundler.Content
import StyleBundler.Failure

/-!
The stylesheets of one build. A path has a cell from the first request on; the cell is
filled by the first load that succeeds and stays as it is from then on, so that a
stylesheet is read, transformed and published once, no matter how often it is imported.
A load that fails leaves its cell empty, and the next one tries again.

A load is made of steps that can be taken apart: `reserve` makes the cell, `fetch` reads
and transforms, and `fill` files the asset.
-/

namespace StyleBundler

structure AssetCell where
  path : Path
  /-- Missing until a load has succeeded. -/
  asset : Option Asset
deriving DecidableEq, Repr, Inhabited

structure AssetStore where
  /-- The cells of all paths that were requested, in order. -/
  cells : List AssetCell
  /-- The filled assets under their names, one asset a name, the latest first. -/
  index : List (String × Asset)
  /-- Names carry the staging mark. -/
  staging : Bool
deriving DecidableEq, Repr, Inhabited

/-- What a load leads to. -/
structure LoadOutcome where
  result : Except StyleError Asset
  store : AssetStore
  /-- The assets that the load has published. -/
  published : List Asset
  /-- How often the content transform was run. -/
  transformRuns : Nat

namespace AssetStore

def empty (staging : Bool) : AssetStore := ⟨[], [], staging⟩

def size (s : AssetStore) : Nat := s.cells.length

/-- The asset of a path that has been loaded. -/
def loaded? (s : AssetStore) (path : Path) : Option Asset :=
  (s.cells.find? fun cell => cell.path.Same path).bind (·.asset)

/-- The name of the asset of a path that has been loaded. -/
def assetName? (s : AssetStore) (path : Path) : Option String := (s.loaded? path).map (·.name)

/-- The asset that a reference leads to. -/
def referenced? (s : AssetStore) (reference : String) : Option Asset :=
  s.index.lookup (Asset.nameIn reference)

/-- Makes a cell for a path that has none. -/
def reserve (s : AssetStore) (path : Path) : AssetStore :=
  if s.cells.any fun cell => cell.path.Same path then s
  else { s with cells := s.cells ++ [⟨path, none⟩] }

def reserveAll (s : AssetStore) (paths : List Path) : AssetStore := paths.foldl reserve s

/-- Files an asset in the cell of its path and under its name. -/
def fill (s : AssetStore) (a : Asset) : AssetStore :=
  { s with
    cells := s.cells.map fun cell =>
      if cell.path.Same a.path then { cell with asset := some a } else cell
    index := (a.name, a) :: s.index.filter (·.1 != a.name) }

/-- The content of a stylesheet after its transform. -/
def fetch (t : FileTree) (transform : Option ContentTransform) (path : Path) :
    Except StyleError String :=
  match t.readText path with
  | .error cause => .error (.read path cause)
  | .ok raw =>
      match transform with
      | none => .ok raw
      | some f =>
          match f raw with
          | .ok content => .ok content
          | .error cause => .error (.transform path cause)

/-- How often fetching runs the transform. -/
def fetchRuns (t : FileTree) (transform : Option ContentTransform) (path : Path) : Nat :=
  if transform.isSome && (t.readText path).isOk then 1 else 0

/-- Loads a stylesheet, unless its cell is filled. -/
def load (s : AssetStore) (t : FileTree) (transform : Option ContentTransform) (path : Path) :
    LoadOutcome :=
  let s := s.reserve path
  match s.loaded? path with
  | some a => ⟨.ok a, s, [], 0⟩
  | none =>
      match fetch t transform path with
      | .error e => ⟨.error e, s, [], fetchRuns t transform path⟩
      | .ok content =>
          let a := Asset.ofContent s.staging path content
          ⟨.ok a, s.fill a, [a], fetchRuns t transform path⟩

end AssetStore

/-- What loading several stylesheets one after the other leads to. -/
structure LoadsOutcome where
  result : Except StyleError (List Asset)
  store : AssetStore
  published : List Asset
  transformRuns : Nat

namespace AssetStore

/-- Loads stylesheets in order, up to the first that fails. -/
def loadEach (s : AssetStore) (t : FileTree) (transform : Option ContentTransform) :
    List Path → LoadsOutcome
  | [] => ⟨.ok [], s, [], 0⟩
  | path :: paths =>
      let first := s.load t transform path
      match first.result with
      | .error e => ⟨.error e, first.store, first.published, first.transformRuns⟩
      | .ok a =>
          let rest := loadEach first.store t transform paths
          ⟨rest.result.map (a :: ·), rest.store, first.published ++ rest.published,
            first.transformRuns + rest.transformRuns⟩

end AssetStore
end StyleBundler
