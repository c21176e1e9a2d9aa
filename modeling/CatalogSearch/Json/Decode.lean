import CatalogSearch.Json.Basic

/-!
# Decoding structured values

Decoders take a structured value to a value of a type of this library, or to
nothing when the shape is wrong.  A record is decoded from an object by the names
of its fields, or from an array by their order; unknown names are ignored, and
items past the last field are refused.
-/

namespace CatalogSearch

abbrev Decoder (α : Type) := Json → Option α

namespace Json

/-- The number of an unsigned word of a given count of bits. -/
def natBelow (limit : Nat) : Decoder Nat
  | number (.integer value) =>
    if 0 ≤ value && value < limit then some value.toNat else none
  | _ => none

def word64 : Decoder UInt64 := fun value => (natBelow UInt64.size value).map UInt64.ofNat

def word32 : Decoder UInt32 := fun value => (natBelow UInt32.size value).map UInt32.ofNat

def boolean : Decoder Bool
  | bool value => some value
  | _ => none

def double : Decoder Double := asDouble?

def text : Decoder String := asString?

/-- The name of one of several cases: text, or the only field of an object, which
is then null. -/
def caseName : Decoder String
  | string name => some name
  | object [(name, null)] => some name
  | _ => none

def listOf {α : Type} (item : Decoder α) : Decoder (List α)
  | array items => items.mapM item
  | _ => none

/-- A value that may be null. -/
def nullable {α : Type} (decode : Decoder α) : Decoder (Option α)
  | null => some none
  | value => (decode value).map some

def fields : Decoder (Table Json)
  | object fields => some fields
  | _ => none

/-- The fields of a record under decoding, by position and by name. -/
abbrev Record := Nat → String → Option Json

/-- The record of at most `size` fields that a value holds. -/
def record? (size : Nat) : Json → Option Record
  | object fields => some fun _ key => Table.find? key fields
  | array items => if size < items.length then none else some fun position _ => items[position]?
  | _ => none

namespace Record

/-- A field that must be present. -/
def required {α : Type} (record : Record) (position : Nat) (key : String) (decode : Decoder α) :
    Option α :=
  (record position key).bind decode

/-- A field that has a default when absent. -/
def withDefault {α : Type} (record : Record) (position : Nat) (key : String) (default : α)
    (decode : Decoder α) : Option α :=
  match record position key with
  | none => some default
  | some value => decode value

/-- A field that may be absent or null. -/
def optional {α : Type} (record : Record) (position : Nat) (key : String) (decode : Decoder α) :
    Option (Option α) :=
  record.withDefault position key none (nullable decode)

end Record

end Json

end CatalogSearch
