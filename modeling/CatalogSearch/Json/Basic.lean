import CatalogSearch.Table
import CatalogSearch.Number.Double

/-!
# Structured values

The values of a structured document: what catalogs answer with, what saved
searches and configurations are made of.  The fields of an object are a table, so
they are in order and none occurs twice.
-/

namespace CatalogSearch

namespace Json

/-- A number is kept whole when it was written without places or exponent and
fits into sixty-four bits. -/
inductive Number
  | integer (value : Int)
  | real (value : Double)
deriving DecidableEq, Repr

/-- The double nearest to a number. -/
def Number.toDouble : Number → Double
  | integer value => Double.ofInt value
  | real value => value

end Json

inductive Json
  | null
  | bool (value : Bool)
  | number (value : Json.Number)
  | string (value : String)
  | array (items : List Json)
  | object (fields : List (String × Json))
deriving Inhabited

namespace Json

/-- An object of the given fields. -/
def ofFields (fields : List (String × Json)) : Json := object (Table.ofList fields)

def ofNat (value : Nat) : Json := number (.integer value)

/-- Text, or null when there is none. -/
def ofText? : Option String → Json
  | none => null
  | some text => string text

def strings (items : List String) : Json := array (items.map string)

/-- The finite double as a number; what is not a number becomes null. -/
def ofDouble (value : Double) : Json :=
  if value.isFinite then number (.real value) else null

/-- The value under a key of an object. -/
def field? (key : String) : Json → Option Json
  | object fields => Table.find? key fields
  | _ => none

def asString? : Json → Option String
  | string value => some value
  | _ => none

def asArray? : Json → Option (List Json)
  | array items => some items
  | _ => none

def asDouble? : Json → Option Double
  | number value => some value.toDouble
  | _ => none

end Json

end CatalogSearch
