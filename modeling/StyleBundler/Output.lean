/-!
Listings of values under names, and the files that a build is going to write.
-/

namespace StyleBundler

/-- Values under distinct names, ordered by name. -/
abbrev Listing (α : Type) := List (String × α)

namespace Listing

/-- Adds a value, in place of an older one under the same name. -/
def insert {α : Type} (name : String) (value : α) : Listing α → Listing α
  | [] => [(name, value)]
  | (other, old) :: rest =>
      if name < other then (name, value) :: (other, old) :: rest
      else if name = other then (name, value) :: rest
      else (other, old) :: insert name value rest

def names {α : Type} (l : Listing α) : List String := l.map (·.1)

end Listing

inductive OutputKind where
  /-- The code of an output unit. -/
  | chunk
  /-- A file that a hook published. -/
  | asset
deriving DecidableEq, Repr, Inhabited

structure OutputFile where
  kind : OutputKind
  source : String
deriving DecidableEq, Repr, Inhabited

abbrev OutputBundle := Listing OutputFile

/-- Drops every file whose name starts with a mark. -/
def OutputBundle.dropMarked (mark : String) (b : OutputBundle) : OutputBundle :=
  b.filter fun (name, _) => !name.startsWith mark

end StyleBundler
