import CatalogSearch.Answer
import CatalogSearch.Text.Characters

/-!
# Sorting

Results are sorted by a list of keys, each an attribute's name and a direction.  Numbers
come before texts; a result that lacks an attribute comes after all that have it,
in either direction.  Results that agree on every key keep the order in which they
arrived.
-/

namespace CatalogSearch

inductive Direction
  | ascending
  | descending
deriving DecidableEq, Repr

namespace Direction

def name : Direction → String
  | ascending => "ascending"
  | descending => "descending"

def ofName? : String → Option Direction
  | "ascending" => some ascending
  | "descending" => some descending
  | _ => none

end Direction

/-- One key of a sort order. -/
structure SortKey where
  name : String
  direction : Direction
deriving DecidableEq, Repr

namespace SortKey

/-- The key with a direction in any ASCII case. -/
def ofNames? (name direction : String) : Option SortKey :=
  (Direction.ofName? (Text.lowercase direction)).map fun direction => ⟨name, direction⟩

def toJson (key : SortKey) : Json :=
  .ofFields [("attribute", .string key.name), ("direction", .string key.direction.name)]

def decode : Decoder SortKey := fun value => do
  let record ← Json.record? 2 value
  let name ← record.required 0 "attribute" Json.text
  let direction ← record.required 1 "direction" fun value => (Json.caseName value).bind Direction.ofName?
  pure ⟨name, direction⟩

/-- The key of a query that names none. -/
def lastModified : SortKey := ⟨"modified", .descending⟩

end SortKey

/-- What results are sorted by. -/
inductive SortValue
  | number (value : Double)
  | text (value : String)
deriving DecidableEq, Repr

namespace SortValue

def order : SortValue → SortValue → Ordering
  | number left, number right => left.order right
  | text left, text right => compare left right
  | number _, text _ => .lt
  | text _, number _ => .gt

/-- The order of two values that may be missing.  The direction turns the order of
values, not where missing ones go. -/
def orderMissingLast (direction : Direction) : Option SortValue → Option SortValue → Ordering
  | some left, some right =>
    match direction with
    | .ascending => left.order right
    | .descending => right.order left
  | some _, none => .lt
  | none, some _ => .gt
  | none, none => .eq

end SortValue

end CatalogSearch
