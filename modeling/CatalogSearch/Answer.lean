import CatalogSearch.Json.Decode

/-!
# Answers of a catalog

A catalog answers a request with items, each of them a metacard and how well it
matched, and with reports on the sources it asked.
-/

namespace CatalogSearch

/-- The description of one catalog record. -/
structure Metacard where
  properties : Table Json

namespace Metacard

def property? (metacard : Metacard) (name : String) : Option Json :=
  Table.find? name metacard.properties

def id? (metacard : Metacard) : Option String := (metacard.property? "id").bind Json.asString?

/-- The site that a metacard was collected from. -/
def sourceId? (metacard : Metacard) : Option String :=
  (metacard.property? "source-id").bind Json.asString?

def decode : Decoder Metacard := fun value => do
  let record ← Json.record? 1 value
  let properties ← record.withDefault 0 "properties" [] Json.fields
  pure ⟨properties⟩

def toJson (metacard : Metacard) : Json := .ofFields [("properties", .object metacard.properties)]

end Metacard

namespace Answer

/-- A metacard that matched. -/
structure Item where
  metacard : Metacard
  relevance : Option Double
  distance : Option Double

/-- What a catalog says about one source that it asked. -/
structure Report where
  id : String
  hits : Option UInt64
  count : Option UInt64
  elapsed : Option UInt64
  successful : Option Bool
  warnings : List String
deriving DecidableEq, Repr

end Answer

structure Answer where
  items : List Answer.Item
  reports : List Answer.Report

namespace Answer

def Item.decode : Decoder Item := fun value => do
  let record ← Json.record? 3 value
  let metacard ← record.required 0 "metacard" Metacard.decode
  let relevance ← record.optional 1 "relevance" Json.double
  let distance ← record.optional 2 "distance" Json.double
  pure ⟨metacard, relevance, distance⟩

def Report.decode : Decoder Report := fun value => do
  let record ← Json.record? 6 value
  let id ← record.required 0 "id" Json.text
  let hits ← record.optional 1 "hits" Json.word64
  let count ← record.optional 2 "count" Json.word64
  let elapsed ← record.optional 3 "elapsed" Json.word64
  let successful ← record.optional 4 "successful" Json.boolean
  let warnings ← record.withDefault 5 "warnings" [] (Json.listOf Json.text)
  pure ⟨id, hits, count, elapsed, successful, warnings⟩

/-- Reports come one by one, as a list or not at all. -/
def decodeReports : Decoder (List Report) := fun value =>
  match Report.decode value with
  | some report => some [report]
  | none =>
    match value with
    | .null => some []
    | _ => Json.listOf Report.decode value

def decode : Decoder Answer := fun value => do
  let record ← Json.record? 2 value
  let items ← record.withDefault 0 "results" [] (Json.listOf Item.decode)
  let reports ← record.withDefault 1 "status" [] decodeReports
  pure ⟨items, reports⟩

end Answer

end CatalogSearch
