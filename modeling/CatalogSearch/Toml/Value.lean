import CatalogSearch.Json.Basic
import CatalogSearch.Toml.Moment

/-!
# Values of configuration files

A value is kept as it was written until someone asks for it: numbers of any size can
stand in a file, and only those that are looked at have to fit.  What is looked at,
and how closely, is said by a shape.
-/

namespace CatalogSearch.Toml

inductive Value
  | text (value : String)
  | flag (value : Bool)
  /-- A numeral with no digits behind the mark of its base has no value. -/
  | integer (value : Option Int)
  /-- A number that is too large for a double has no value. -/
  | real (value : Option Double)
  | moment (value : Moment)
  | array (items : List Value)
  | table (entries : List (String × Value))
deriving Inhabited

/-- What a reader of values looks at.  A record is a table with known keys, or an
array with their values in order. -/
inductive Shape
  | any
  | list (item : Shape)
  | record (fields : List (String × Shape))
deriving Inhabited

namespace Shape

/-- The shape of the item at a position of an array.  Past the last field of a
record nothing is looked at. -/
def item? : Shape → Nat → Option Shape
  | any, _ => some any
  | list item, _ => some item
  | record fields, position => fields[position]?.map (·.2)

/-- The shape of the value under a key of a table.  A record does not use what it
does not know. -/
def entry? : Shape → String → Option Shape
  | record fields, key => Table.find? key fields
  | _, _ => some any

end Shape

namespace Value

mutual

/-- Whether a value that is not used can be passed over: its integers fit into one
hundred and twenty-eight bits, and doubles hold its other numbers. -/
def isReadable : Value → Bool
  | .integer value =>
    value.any fun value => -((1 <<< 127 : Nat) : Int) ≤ value && value < (1 <<< 128 : Nat)
  | .real value => value.isSome
  | .array items => itemsReadable items
  | .table entries => entriesReadable entries
  | _ => true

def itemsReadable : List Value → Bool
  | [] => true
  | item :: items => item.isReadable && itemsReadable items

def entriesReadable : List (String × Value) → Bool
  | [] => true
  | (_, value) :: entries => value.isReadable && entriesReadable entries

end

/-- The field under which a moment is kept, as text. -/
def momentField : String := "$__toml_private_datetime"

mutual

/-- The structured value of what a shape looks at.  Integers in use must fit into
sixty-four bits. -/
def toJson? (shape : Shape) : Value → Option Json
  | .text value => some (.string value)
  | .flag value => some (.bool value)
  | .integer value => do
    let value ← value
    if -((1 <<< 63 : Nat) : Int) ≤ value && value < UInt64.size then
      some (.number (.integer value))
    else none
  | .real value => value.map fun value => .number (.real value)
  | .moment value => some (.object [(momentField, .string (String.ofList value.write))])
  | .array items => (itemsJson? shape 0 items).map .array
  | .table entries => (entriesJson? shape entries).map .ofFields

def itemsJson? (shape : Shape) (position : Nat) : List Value → Option (List Json)
  | [] => some []
  | item :: items =>
    match shape.item? position with
    | none => some []
    | some inner => do
      let first ← item.toJson? inner
      let rest ← itemsJson? shape (position + 1) items
      pure (first :: rest)

def entriesJson? (shape : Shape) : List (String × Value) → Option (List (String × Json))
  | [] => some []
  | (key, value) :: entries =>
    match shape.entry? key with
    | none => if value.isReadable then entriesJson? shape entries else none
    | some inner => do
      let first ← value.toJson? inner
      let rest ← entriesJson? shape entries
      pure ((key, first) :: rest)

end

end Value

end CatalogSearch.Toml
