import StyleBundler.Toml.Value

/-!
Tables while a document is being read. A table knows how it came about, for only a
table that a longer header implied can still get a header of its own, and only one that
dotted keys made can get more dotted keys.
-/

namespace StyleBundler.Toml

/-- How a table came about. -/
inductive Origin where
  | defined
  | implied
  | dotted
deriving DecidableEq, Repr

inductive Node where
  | leaf (value : Value)
  | table (origin : Origin) (entries : List (String × Node))
  /-- The tables of an array of tables, the first one first. -/
  | tables (elements : List (List (String × Node)))
deriving Repr, Inhabited

abbrev Entries := List (String × Node)

def nodeAt? (entries : Entries) (key : String) : Option Node := entries.lookup key

/-- Replaces an entry in its place, or adds it at the end. -/
def setEntry (entries : Entries) (key : String) (node : Node) : Entries :=
  if entries.any (·.1 == key) then
    entries.map fun entry => if entry.1 == key then (key, node) else entry
  else entries ++ [(key, node)]

def removeEntry (entries : Entries) (key : String) : Entries :=
  entries.filter (·.1 != key)

/-- Changes the table at the end of a path, making the tables on the way. An array of
tables stands for its last table; a dotted path goes only through tables that no header
defined. -/
def descend (isDotted : Bool) (change : Origin → Entries → Option Entries) :
    List String → Origin → Entries → Option Entries
  | [], origin, entries => change origin entries
  | key :: path, _, entries =>
      match nodeAt? entries key with
      | none => do
          let origin := if isDotted then .dotted else .implied
          let child ← descend isDotted change path origin []
          some (setEntry entries key (.table origin child))
      | some (.leaf _) => none
      | some (.table origin child) =>
          if isDotted && origin = .defined then none
          else do
            let child ← descend isDotted change path origin child
            some (setEntry entries key (.table origin child))
      | some (.tables elements) =>
          match elements.reverse with
          | [] => none
          | last :: front => do
              let last ← descend isDotted change path .defined last
              some (setEntry entries key (.tables (last :: front).reverse))

/-- Adds a value under a key that is not in use. Behind a dotted path it has to stand in
a table that dotted keys made, and else in one that they did not make. -/
def insertKey (path : List String) (key : String) (value : Value) (entries : Entries) :
    Option Entries :=
  descend true
    (fun origin found =>
      if (origin == .dotted) == path.isEmpty then none
      else if (nodeAt? found key).isSome then none
      else some (found ++ [(key, .leaf value)]))
    path .defined entries

mutual

/-- The value that a finished node stands for. -/
def Node.close : Node → Value
  | .leaf value => value
  | .table _ entries => .table (closeEntries entries)
  | .tables elements => .array (closeTables elements)

def closeEntries : List (String × Node) → List (String × Value)
  | [] => []
  | (key, node) :: entries => (key, node.close) :: closeEntries entries

def closeTables : List (List (String × Node)) → List Value
  | [] => []
  | entries :: elements => .table (closeEntries entries) :: closeTables elements

end

/-- A document whose last header's table is still open. -/
structure Draft where
  root : Entries
  /-- The open table's path, and whether it is an element of an array of tables. -/
  header : Option (Bool × List String × String)
  current : Entries
deriving Inhabited

namespace Draft

def empty : Draft := ⟨[], none, []⟩

/-- Puts the open table in its place. -/
def finish (d : Draft) : Option Entries :=
  match d.header with
  | none => some d.current
  | some (isArray, path, key) =>
      descend false
        (fun _ entries =>
          match isArray, nodeAt? entries key with
          | true, none => some (entries ++ [(key, .tables [d.current])])
          | true, some (.tables elements) =>
              some (setEntry entries key (.tables (elements ++ [d.current])))
          | true, some _ => none
          | false, some _ => none
          | false, none => some (entries ++ [(key, .table .defined d.current)]))
        path .defined d.root

/-- Opens a table. One that only a longer header implied goes on with what it holds. -/
def openTable (d : Draft) (path : List String) (key : String) : Option Draft := do
  let root ← d.finish
  let root' ← descend false
    (fun _ entries =>
      match nodeAt? entries key with
      | none => some entries
      | some (.table .implied _) => some (removeEntry entries key)
      | some _ => none)
    path .defined root
  let current := openEntries path root
  some ⟨root', some (false, path, key), current⟩
where
  /-- What the table that is opened holds already. -/
  openEntries : List String → Entries → Entries
    | [], entries =>
        match nodeAt? entries key with
        | some (.table _ child) => child
        | _ => []
    | step :: path, entries =>
        match nodeAt? entries step with
        | some (.table _ child) => openEntries path child
        | some (.tables elements) => openEntries path (elements.getLast?.getD [])
        | _ => []

/-- Opens a new element of an array of tables. -/
def openElement (d : Draft) (path : List String) (key : String) : Option Draft := do
  let root ← d.finish
  let root ← descend false
    (fun _ entries =>
      match nodeAt? entries key with
      | none => some (entries ++ [(key, .tables [])])
      | some (.tables _) => some entries
      | some _ => none)
    path .defined root
  some ⟨root, some (true, path, key), []⟩

def insert (d : Draft) (path : List String) (key : String) (value : Value) : Option Draft :=
  (insertKey path key value d.current).map fun current => { d with current := current }

end Draft
end StyleBundler.Toml
