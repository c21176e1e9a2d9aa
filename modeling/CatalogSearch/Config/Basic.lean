import CatalogSearch.Json.Decode

/-!
# Configurations

A configuration names the catalog, the sources it can ask and how searches are run
unless a query says otherwise.
-/

namespace CatalogSearch

namespace Config

structure Service where
  logLevel : String

/-- Where and how the catalog is asked. -/
structure Endpoint where
  apiBase : String
  queryPath : String
  /-- In milliseconds. -/
  timeout : UInt64
  apiKey : Option String
  defaultHeaders : Table Json

/-- A sort key as declared, with a direction that may be unknown. -/
structure DeclaredSort where
  name : String
  direction : String
deriving DecidableEq, Repr

structure Search where
  resultCount : UInt32
  cacheEnabled : Bool
  localCatalog : String
  federation : String
  spellcheck : Bool
  phonetics : Bool
  sorts : List DeclaredSort
deriving DecidableEq, Repr

/-- A source as declared, with a classification that may be unknown. -/
structure DeclaredSource where
  id : String
  classification : String
  available : Bool
deriving DecidableEq, Repr

end Config

structure Config where
  service : Config.Service
  catalog : Config.Endpoint
  search : Config.Search
  sources : List Config.DeclaredSource

namespace Config

def defaultQueryPath : String := "/search/catalog/internal/cql"

def Service.decode : Decoder Service := fun value => do
  let record ← Json.record? 1 value
  let logLevel ← record.required 0 "log_level" Json.text
  pure ⟨logLevel⟩

def Endpoint.decode : Decoder Endpoint := fun value => do
  let record ← Json.record? 5 value
  let apiBase ← record.required 0 "api_base" Json.text
  let queryPath ← record.withDefault 1 "query_path" defaultQueryPath Json.text
  let timeout ← record.required 2 "timeout_ms" Json.word64
  let apiKey ← record.optional 3 "api_key" Json.text
  let defaultHeaders ← record.withDefault 4 "default_headers" [] Json.fields
  pure ⟨apiBase, queryPath, timeout, apiKey, defaultHeaders⟩

def DeclaredSort.decode : Decoder DeclaredSort := fun value => do
  let record ← Json.record? 2 value
  let name ← record.required 0 "attribute" Json.text
  let direction ← record.required 1 "direction" Json.text
  pure ⟨name, direction⟩

def Search.decode : Decoder Search := fun value => do
  let record ← Json.record? 7 value
  let resultCount ← record.required 0 "result_count" Json.word32
  let cacheEnabled ← record.required 1 "cache_enabled" Json.boolean
  let localCatalog ← record.required 2 "local_catalog" Json.text
  let federation ← record.withDefault 3 "federation" "enterprise" Json.text
  let spellcheck ← record.withDefault 4 "spellcheck" false Json.boolean
  let phonetics ← record.withDefault 5 "phonetics" false Json.boolean
  let sorts ← record.withDefault 6 "sorts" [⟨"modified", "descending"⟩]
    (Json.listOf DeclaredSort.decode)
  pure ⟨resultCount, cacheEnabled, localCatalog, federation, spellcheck, phonetics, sorts⟩

def DeclaredSource.decode : Decoder DeclaredSource := fun value => do
  let record ← Json.record? 3 value
  let id ← record.required 0 "id" Json.text
  let classification ← record.withDefault 1 "classification" "federated" Json.text
  let available ← record.withDefault 2 "available" true Json.boolean
  pure ⟨id, classification, available⟩

def decode : Decoder Config := fun value => do
  let record ← Json.record? 4 value
  let service ← record.required 0 "service" Service.decode
  let catalog ← record.required 1 "catalog" Endpoint.decode
  let search ← record.required 2 "search" Search.decode
  let sources ← record.withDefault 3 "sources" [] (Json.listOf DeclaredSource.decode)
  pure ⟨service, catalog, search, sources⟩

end Config

end CatalogSearch
