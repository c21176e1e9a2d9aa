import CatalogSearch.Cql.Parser
import CatalogSearch.Cql.Writer
import CatalogSearch.Paging.Tracker
import CatalogSearch.View.Sorting

/-!
# Requests of a round

A round asks all local sites in one request, each federated site in one of its
own, and the cache, if it is enabled, in one that is narrowed to the same sites.
-/

namespace CatalogSearch

/-- The number of a round.  No two rounds of a session share one. -/
abbrev RoundId := Nat

/-- The sources that a request reads for, which share an offset. -/
inductive Group
  | localSites
  | site (id : String)
  | cache
deriving DecidableEq, Repr

namespace Group

/-- The key of the group's offset. -/
def key : Group → String
  | localSites => localKey
  | site id => id
  | cache => Source.cacheId

end Group

structure Request where
  sources : List String
  cql : String
  start : UInt64
  count : UInt32
  sorts : List SortKey
  /-- In milliseconds. -/
  timeout : UInt64
  queryId : String
  round : RoundId
  spellcheck : Bool
  phonetics : Bool
  group : Group
deriving DecidableEq, Repr

namespace Request

/-- The property in which the cache keeps the site of a record. -/
def originProperty : String := "metacard_source"

/-- The records that come from one of some sites. -/
def restriction (sources : List String) : Filter :=
  .or (sources.map fun id => .equals originProperty (.text id))

/-- Query text restricted to records that come from some sites.  Text that is no
query is restricted as it stands. -/
def narrow (cql : String) (sources : List String) : String :=
  match Cql.parse cql with
  | .ok filter => Cql.toText (filter.both (restriction sources))
  | .error _ => "(" ++ cql ++ ") AND (" ++ Cql.toText (restriction sources) ++ ")"

/-- A request for the sources of a group, from the group's offset on. -/
def forGroup (base : Request) (tracker : PageTracker) (group : Group) (sources : List String) :
    Request :=
  { base with sources, group, start := tracker.startOf group.key }

/-- The requests for some selected sources, made after `base`.  A group without
members makes none. -/
def split (base : Request) (selected : List String) (registry : Registry)
    (tracker : PageTracker) : List Request :=
  let localIds := selected.filter registry.isLocal
  let federatedIds := selected.filter registry.isFederated
  let realIds := selected.filter fun id => id != Source.cacheId
  (if localIds.isEmpty then [] else [base.forGroup tracker .localSites localIds]) ++
    federatedIds.map (fun id => base.forGroup tracker (.site id) [id]) ++
    if registry.cacheEnabled && !realIds.isEmpty then
      [{ base.forGroup tracker .cache [Source.cacheId] with cql := narrow base.cql realIds }]
    else []

/-- The body that is posted to the catalog, for a given name of the round. -/
def toJson (roundName : String) (request : Request) : Json :=
  .ofFields
    [("sources", .strings request.sources), ("cql", .string request.cql),
      ("start", .ofNat request.start.toNat), ("count", .ofNat request.count.toNat),
      ("sorts", .array (request.sorts.map SortKey.toJson)),
      ("timeout", .ofNat request.timeout.toNat), ("id", .string request.queryId),
      ("batchId", .string roundName), ("spellcheck", .bool request.spellcheck),
      ("phonetics", .bool request.phonetics)]

end Request

end CatalogSearch
