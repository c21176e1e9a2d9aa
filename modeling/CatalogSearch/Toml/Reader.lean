import CatalogSearch.Toml.Scalars
import CatalogSearch.Toml.Tree

/-!
# Reading configuration files

A file is a sequence of lines: headers, which open tables, and values under paths
of keys.  It is read into lines first, which then build the tree of tables.
-/

namespace CatalogSearch.Toml

/-- How deep arrays and inline tables may nest. -/
def nestingLimit : Nat := 80

/-- Items up to a closing mark, with commas between them and perhaps after the
last.  The number of steps is bounded by the length of the text. -/
def readItems {α : Type} (close : Char) (item : Reader α) : Nat → Reader (List α)
  | 0, _ => none
  | steps + 1, text => do
    match ← skipLines false text with
    | [] => none
    | c :: rest =>
      if c = close then some ([], rest)
      else do
        let (first, rest) ← item (c :: rest)
        match ← skipLines false rest with
        | ',' :: rest => do
          let (more, rest) ← readItems close item steps rest
          pure (first :: more, rest)
        | c :: rest => if c = close then some ([first], rest) else none
        | [] => none

/-- A path of keys, an equals sign and a value, with gaps around the sign. -/
def readEntry (skipGap : List Char → Option (List Char)) (value : Reader Value) :
    Reader (Path × Value) := fun text => do
  let (path, rest) ← readPath text
  let rest ← skipGap rest
  let rest ← expect '=' rest
  let rest ← skipGap rest
  let (value, rest) ← value rest
  pure ((path, value), rest)

/-- A value in which arrays and inline tables nest at most `levels` deep.  Inside an
inline table lines may break around every mark, but not within a path. -/
def readValue (levels : Nat) : Reader Value := fun text =>
  match readString? text with
  | some result => result.map fun (text, rest) => (.text (String.ofList text), rest)
  | none =>
    match text with
    | '[' :: rest =>
      match levels with
      | 0 => none
      | levels + 1 => (readItems ']' (readValue levels) (rest.length + 1) rest).map
        fun (items, rest) => (.array items, rest)
    | '{' :: rest =>
      match levels with
      | 0 => none
      | levels + 1 => do
        let entry := readEntry (skipLines false) (readValue levels)
        let (values, rest) ← readItems '}' entry (rest.length + 1) rest
        let table ← Entries.inline? values
        pure (table, rest)
    | _ => readScalar text

inductive Line
  | header (path : Path)
  | item (path : Path)
  | value (path : Path) (value : Value)

/-- A line that is not empty, up to its end. -/
def readLine : Reader Line := fun text =>
  match text with
  | '[' :: '[' :: rest => do
    let (path, rest) ← readPath rest
    let rest ← expect ']' rest
    let rest ← expect ']' rest
    pure (.item path, rest)
  | '[' :: rest => do
    let (path, rest) ← readPath rest
    let rest ← expect ']' rest
    pure (.header path, rest)
  | _ =>
    let entry := readEntry (fun rest => some (skipBlanks rest)) (readValue nestingLimit)
    (entry text).map fun ((path, value), rest) => (.value path value, rest)

/-- All lines of a text.  The number of steps is bounded by its length. -/
def readLines : Nat → List Char → Option (List Line)
  | 0, _ => none
  | steps + 1, text => do
    match ← skipLines false text with
    | [] => some []
    | text => do
      let (line, rest) ← readLine text
      let rest ← finishLine rest
      let lines ← readLines steps rest
      pure (line :: lines)

/-- The tree after more lines, of which values go to the table of `header`. -/
def build (header : List String) (entries : Entries) : List Line → Option Entries
  | [] => some entries
  | .header path :: lines => do
    let entries ← entries.openTable path
    build (path.parents ++ [path.key]) entries lines
  | .item path :: lines => do
    let entries ← entries.openItem path
    build (path.parents ++ [path.key]) entries lines
  | .value path value :: lines => do
    let entries ← entries.addBelow header path value
    build header entries lines

/-- The text without a byte order mark at its front. -/
def skipMark : List Char → List Char
  | '\uFEFF' :: rest => rest
  | text => text

/-- The table that a configuration file holds. -/
def read? (text : String) : Option Value := do
  let text := skipMark text.toList
  let lines ← readLines (text.length + 1) text
  let entries ← build [] [] lines
  pure (Node.table .header entries).toValue

end CatalogSearch.Toml
