import CatalogSearch.Toml.Value

/-!
# Trees of tables

The lines of a configuration file build a tree of tables.  A table is opened once
by its own header; tables on the way to it come into being in passing and may get
their header later.  A path of keys makes the tables it needs and takes over the ones
that came into being in passing; neither gets a header any more.  Values, inline
tables among them, are never changed.
-/

namespace CatalogSearch.Toml

/-- What a table goes back to: its own header, the way to another table, or a path
of keys. -/
inductive Origin
  | header
  | passing
  | keys
deriving DecidableEq, Repr

/-- What becomes of a table that is entered on a way whose missing tables are made
with the origin `made`.  Paths of keys take over what they enter, and they do not
enter a table with a header to itself. -/
def Origin.entered? (made : Origin) : Origin → Option Origin
  | header => if made = keys then none else some header
  | origin => some (if made = keys then keys else origin)

inductive Node
  | value (value : Value)
  | table (origin : Origin) (entries : List (String × Node))
  /-- Tables under one header, the latest first. -/
  | tables (latestFirst : List Node)

abbrev Entries := List (String × Node)

namespace Node

mutual

/-- The value that a node stands for. -/
def toValue : Node → Value
  | .value stored => stored
  | .table _ entries => .table (entriesValues entries)
  | .tables latestFirst => .array (nodesValues latestFirst).reverse

def nodesValues : List Node → List Value
  | [] => []
  | node :: nodes => node.toValue :: nodesValues nodes

def entriesValues : List (String × Node) → List (String × Value)
  | [] => []
  | (key, node) :: entries => (key, node.toValue) :: entriesValues entries

end

end Node

namespace Entries

/-- The entries with the node of a key changed, where a missing one is nothing. -/
def alter (key : String) (change : Option Node → Option Node) : Entries → Option Entries
  | [] => (change none).map fun node => [(key, node)]
  | entry :: rest =>
    if entry.1 = key then (change (some entry.2)).map fun node => (key, node) :: rest
    else (alter key change rest).map (entry :: ·)

/-- Changes the entries of the table at the end of a way.  Missing tables on the
way are made with the origin `made`, and of several tables under one header the
latest is entered as it is. -/
def within (made : Origin) (change : Origin → Entries → Option Entries) :
    List String → Origin → Entries → Option Entries
  | [], origin, entries => change origin entries
  | key :: keys, _, entries =>
    alter key (fun node =>
      match node with
      | none => (within made change keys made []).map (.table made)
      | some (.table origin inner) => do
        let origin ← made.entered? origin
        let inner ← within made change keys origin inner
        pure (.table origin inner)
      | some (.tables (.table origin inner :: earlier)) =>
        (within made change keys origin inner).map fun inner =>
          .tables (.table origin inner :: earlier)
      | some _ => none) entries

/-- The entries with a value under a path of keys, which must be new.  A path that
leads to another table does not end in one that was opened by a header. -/
def addValue (path : Path) (value : Value) (origin : Origin) (entries : Entries) :
    Option Entries :=
  within .keys
    (fun origin entries =>
      if origin = .header && !path.parents.isEmpty then none
      else
        alter path.key (fun node =>
          match node with
          | none => some (.value value)
          | some _ => none) entries)
    path.parents origin entries

/-- The entries with a table opened by its header. -/
def openTable (path : Path) (entries : Entries) : Option Entries :=
  within .passing
    (fun _ entries =>
      alter path.key (fun node =>
        match node with
        | none => some (.table .header [])
        | some (.table .passing inner) => some (.table .header inner)
        | some _ => none) entries)
    path.parents .header entries

/-- The entries with one more table under a header for several. -/
def openItem (path : Path) (entries : Entries) : Option Entries :=
  within .passing
    (fun _ entries =>
      alter path.key (fun node =>
        match node with
        | none => some (.tables [.table .header []])
        | some (.tables earlier) => some (.tables (.table .header [] :: earlier))
        | some _ => none) entries)
    path.parents .header entries

/-- The entries with a value under a path of keys in the table of a header. -/
def addBelow (header : List String) (path : Path) (value : Value) (entries : Entries) :
    Option Entries :=
  within .passing (addValue path value) header .header entries

/-- The inline table of some paths and values. -/
def inline? (values : List (Path × Value)) : Option Value := do
  let entries ← values.foldlM (fun entries entry => addValue entry.1 entry.2 .header entries) []
  pure (Node.table .header entries).toValue

end Entries

end CatalogSearch.Toml
