import CatalogSearch.Roster

/-!
# Sources and their registry

A search asks sources.  Local sites belong to the local catalog and share one
offset when paging; federated sites page on their own.  The cache is a source of
its own that is never registered: it answers for sites it has collected records
from.
-/

namespace CatalogSearch

namespace Source

/-- How a source takes part in paging. -/
inductive Kind
  | localSite
  | federatedSite
deriving DecidableEq, Repr

def Kind.name : Kind → String
  | localSite => "local"
  | federatedSite => "federated"

def Kind.ofName? : String → Option Kind
  | "local" => some localSite
  | "federated" => some federatedSite
  | _ => none

/-- The id under which the cache is asked. -/
def cacheId : String := "cache"

end Source

structure Source where
  id : String
  kind : Source.Kind
  available : Bool
deriving DecidableEq, Repr

/-- The sources that a search can ask. -/
structure Registry where
  sources : List Source
  localCatalog : String
  cacheEnabled : Bool
deriving DecidableEq, Repr

namespace Registry

/-- A registry that knows its local catalog only. -/
def create (localCatalog : String) (cacheEnabled : Bool) : Registry :=
  ⟨[⟨localCatalog, .localSite, true⟩], localCatalog, cacheEnabled⟩

/-- The registry with a source added, or put in the place of the one with its id.
The cache is not registered. -/
def register (registry : Registry) (source : Source) : Registry :=
  if source.id = Source.cacheId then registry
  else
    { registry with
      sources := Roster.enter Source.id source.id source (fun _ => source) registry.sources }

def setAvailable (registry : Registry) (id : String) (available : Bool) : Registry :=
  { registry with
    sources :=
      Roster.adjust Source.id id (fun source => { source with available }) registry.sources }

def ids (registry : Registry) : List String := registry.sources.map Source.id

def availableIds (registry : Registry) : List String :=
  (registry.sources.filter Source.available).map Source.id

/-- The kind of a source; one that is not registered is federated. -/
def kindOf (registry : Registry) (id : String) : Source.Kind :=
  match Roster.find? Source.id id registry.sources with
  | some source => source.kind
  | none => .federatedSite

def isLocal (registry : Registry) (id : String) : Bool :=
  id != Source.cacheId && registry.kindOf id == .localSite

def isFederated (registry : Registry) (id : String) : Bool :=
  id != Source.cacheId && registry.kindOf id == .federatedSite

theorem isLocal_cacheId (registry : Registry) : registry.isLocal Source.cacheId = false := rfl

theorem isFederated_cacheId (registry : Registry) :
    registry.isFederated Source.cacheId = false := rfl

/-- What is not the cache is either local or federated. -/
theorem isFederated_eq_not_isLocal (registry : Registry) {id : String}
    (h : id ≠ Source.cacheId) : registry.isFederated id = !registry.isLocal id := by
  have hid : (id != Source.cacheId) = true := bne_iff_ne.2 h
  unfold isFederated isLocal
  rw [hid]
  cases registry.kindOf id <;> rfl

end Registry

end CatalogSearch
