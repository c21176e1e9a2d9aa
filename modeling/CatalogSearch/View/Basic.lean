import CatalogSearch.Roster
import CatalogSearch.Source.Registry
import CatalogSearch.View.Sorting

/-!
# The view of results

Items that arrive are first queued and then merged into the view, which holds one
record of each id, sorted.  A record filed under the cache gives way to the first
record of its id from a real source; any other later record of an id is dropped.
-/

namespace CatalogSearch

/-- One result: a metacard, the source it is filed under and when it arrived. -/
structure Result where
  metacard : Metacard
  source : String
  relevance : Option Double
  distance : Option Double
  arrival : Nat

namespace Result

/-- The id of the metacard, empty if it has none. -/
def id (result : Result) : String := result.metacard.id?.getD ""

def isCached (result : Result) : Bool := result.source == Source.cacheId

/-- What a result is sorted by under an attribute.  Two names stand for its scores
and all others for properties. -/
def sortValue? (result : Result) (name : String) : Option SortValue :=
  if name = "RELEVANCE" then result.relevance.map .number
  else if name = "DISTANCE" then result.distance.map .number
  else
    match result.metacard.property? name with
    | some (.number value) => some (.number value.toDouble)
    | some (.string value) => some (.text value)
    | some (.bool value) => some (.number (Double.ofInt (if value then 1 else 0)))
    | _ => none

/-- The order of results under some keys, then by arrival. -/
def order (left right : Result) : List SortKey → Ordering
  | [] => compare left.arrival right.arrival
  | key :: keys =>
    (SortValue.orderMissingLast key.direction (left.sortValue? key.name)
      (right.sortValue? key.name)).then (order left right keys)

def toJson (result : Result) : Json :=
  let score (name : String) (value : Option Double) :=
    (value.map fun value => (name, Json.ofDouble value)).toList
  .ofFields ([("metacard", result.metacard.toJson), ("source_id", .string result.source)] ++
    score "relevance" result.relevance ++ score "distance" result.distance)

end Result

structure View where
  records : List Result
  queue : List Result
  sorts : List SortKey
  autoMerge : Bool
  /-- How many results have arrived. -/
  arrivals : Nat

namespace View

/-- The results in order, those that agree on all keys and on arrival as they
stood. -/
def arrange (sorts : List SortKey) (records : List Result) : List Result :=
  records.mergeSort fun left right => (left.order right sorts).isLE

def empty (sorts : List SortKey) : View := ⟨[], [], sorts, true, 0⟩

def sort (view : View) : View := { view with records := arrange view.sorts view.records }

def setSorts (view : View) (sorts : List SortKey) : View := { view with sorts }.sort

def setAutoMerge (view : View) (autoMerge : Bool) : View := { view with autoMerge }

/-- The view of a new round: seeds only, and nothing queued. -/
def restart (view : View) (sorts : List SortKey) (seeds : List Result) : View :=
  { view with records := seeds, queue := [], sorts }.sort

/-- The source that a metacard is filed under when `asked` delivers it.  What the
cache delivers stays filed under the cache, whatever site it was collected from. -/
def filedUnder (asked : String) (metacard : Metacard) : String :=
  if asked = Source.cacheId then Source.cacheId else metacard.sourceId?.getD asked

/-- The items that have an id as results, numbered in the order of arrival. -/
def arriving (asked : String) (arrival : Nat) : List Answer.Item → List Result
  | [] => []
  | item :: items =>
    if item.metacard.id?.isNone then arriving asked arrival items
    else
      ⟨item.metacard, filedUnder asked item.metacard, item.relevance, item.distance, arrival⟩ ::
        arriving asked (arrival + 1) items

/-- The view with the items of one answer queued. -/
def enqueue (view : View) (asked : String) (items : List Answer.Item) : View :=
  let results := arriving asked view.arrivals items
  { view with queue := view.queue ++ results, arrivals := view.arrivals + results.length }

/-- The records with one more result taken in.  A cached record that gives way
passes its arrival on. -/
def absorb (records : List Result) (result : Result) : List Result :=
  match records with
  | [] => [result]
  | record :: rest =>
    if record.id = result.id then
      if record.isCached && !result.isCached then { result with arrival := record.arrival } :: rest
      else record :: rest
    else record :: absorb rest result

/-- The view with its queue taken into the records. -/
def merge (view : View) : View :=
  { view with records := view.queue.foldl absorb view.records, queue := [] }.sort

def emptyQueue (view : View) : View := { view with queue := [] }

def contains (view : View) (id : String) : Bool := view.records.any fun record => record.id == id

@[simp]
theorem queue_merge (view : View) : view.merge.queue = [] := rfl

@[simp]
theorem queue_restart (view : View) (sorts : List SortKey) (seeds : List Result) :
    (view.restart sorts seeds).queue = [] := rfl

end View

end CatalogSearch
