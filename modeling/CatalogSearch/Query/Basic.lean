import CatalogSearch.Config.Basic
import CatalogSearch.Cql.Writer
import CatalogSearch.SearchFault
import CatalogSearch.Source.Registry
import CatalogSearch.View.Sorting

/-!
# Queries

A query says what is searched, where, and in which order results are wanted.
-/

namespace CatalogSearch

/-- Which sources a query goes to. -/
inductive Federation
  | localCatalog
  | enterprise
  | selected
deriving DecidableEq, Repr

namespace Federation

def name : Federation → String
  | localCatalog => "local"
  | enterprise => "enterprise"
  | selected => "selected"

def ofName? : String → Option Federation
  | "local" => some localCatalog
  | "enterprise" => some enterprise
  | "selected" => some selected
  | _ => none

/-- The federation of a word with white space around it, in any ASCII case. -/
def ofWord? (word : String) : Option Federation := ofName? (Text.lowercase (Text.strip word))

end Federation

structure Query where
  id : String
  title : String
  filter : Filter
  sorts : List SortKey
  federation : Federation
  sources : List String
  spellcheck : Bool
  phonetics : Bool
  /-- Whether the query has changed since it was last run. -/
  outdated : Bool
deriving DecidableEq

namespace Query

/-- A query for any text, under a fresh id. -/
def create (id title : String) : Query :=
  ⟨id, title, .anyText, [.lastModified], .enterprise, [], false, false, false⟩

def cql (query : Query) : String := Cql.toText query.filter

def readSort (sort : Config.DeclaredSort) : Except SearchFault SortKey :=
  match SortKey.ofNames? sort.name sort.direction with
  | some key => .ok key
  | none => .error (.unknownDirection sort.direction)

/-- A query that is run as the configuration says. -/
def withDefaults (id title : String) (search : Config.Search) : Except SearchFault Query :=
  match Federation.ofWord? search.federation with
  | none => .error (.unknownFederation search.federation)
  | some federation => do
    let sorts ← search.sorts.mapM readSort
    .ok { create id title with
      federation
      sorts
      spellcheck := search.spellcheck
      phonetics := search.phonetics }

/-- The ids of the sources that a query goes to. -/
def selectedSources (query : Query) (registry : Registry) : List String :=
  match query.federation with
  | .localCatalog => [registry.localCatalog]
  | .enterprise => registry.ids
  | .selected => query.sources

end Query

/-- The registry of the sources that a configuration declares. -/
def Config.registry (config : Config) : Except SearchFault Registry :=
  config.sources.foldlM
    (fun registry source =>
      match Source.Kind.ofName? source.classification with
      | some kind => .ok (registry.register ⟨source.id, kind, source.available⟩)
      | none => .error (.unknownClassification source.classification source.id))
    (Registry.create config.search.localCatalog config.search.cacheEnabled)

end CatalogSearch
