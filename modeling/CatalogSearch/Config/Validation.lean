import CatalogSearch.Config.Basic
import CatalogSearch.Source.Registry
import CatalogSearch.Text.Characters

/-!
# Valid configurations

A configuration that was read is first normalized and then checked; the first
thing found wrong is reported.
-/

namespace CatalogSearch.Config

/-- What is wrong with a configuration. -/
inductive Defect
  | blankLogLevel
  | blankApiBase
  | relativeQueryPath
  | zeroTimeout
  | headerNotText (name : String)
  | zeroResultCount
  | unknownFederation
  | blankSortAttribute
  | unknownSortDirection
  | blankSourceId
  | reservedSourceId
  | unknownClassification (id : String)
  | repeatedSourceId (id : String)
  | localCatalogNotLocal
  | localCatalogUndeclared
deriving DecidableEq, Repr

def Defect.message : Defect → String
  | blankLogLevel => "service.log_level must be non-empty."
  | blankApiBase => "catalog.api_base must be non-empty."
  | relativeQueryPath => "catalog.query_path must start with '/'."
  | zeroTimeout => "catalog.timeout_ms must be greater than zero."
  | headerNotText name => "catalog.default_headers." ++ name ++ " must be a string."
  | zeroResultCount => "search.result_count must be greater than zero."
  | unknownFederation => "search.federation must be one of local, enterprise, or selected."
  | blankSortAttribute => "search.sorts.attribute must be non-empty."
  | unknownSortDirection => "search.sorts.direction must be ascending or descending."
  | blankSourceId => "sources.id must be non-empty."
  | reservedSourceId => "sources.id '" ++ Source.cacheId ++ "' is reserved."
  | unknownClassification id => "sources." ++ id ++ ".classification must be local or federated."
  | repeatedSourceId id => "sources.id '" ++ id ++ "' is declared more than once."
  | localCatalogNotLocal => "search.local_catalog must name a source classified as local."
  | localCatalogUndeclared => "search.local_catalog must name a declared source."

/-- Reports a defect unless a condition holds. -/
def demand (condition : Bool) (defect : Defect) : Except Defect Unit :=
  if condition then .ok () else .error defect

def Service.check (service : Service) : Except Defect Unit :=
  demand (!Text.isBlankString service.logLevel) .blankLogLevel

def Endpoint.check (endpoint : Endpoint) : Except Defect Unit := do
  demand (!Text.isBlankString endpoint.apiBase) .blankApiBase
  demand (endpoint.queryPath.toList.head? == some '/') .relativeQueryPath
  demand (endpoint.timeout != 0) .zeroTimeout
  endpoint.defaultHeaders.forM fun entry =>
    demand entry.2.asString?.isSome (.headerNotText entry.1)

def DeclaredSort.check (sort : DeclaredSort) : Except Defect Unit := do
  demand (!Text.isBlankString sort.name) .blankSortAttribute
  demand (["ascending", "descending"].contains sort.direction) .unknownSortDirection

def Search.check (search : Search) : Except Defect Unit := do
  demand (search.resultCount != 0) .zeroResultCount
  demand (["local", "enterprise", "selected"].contains search.federation) .unknownFederation
  search.sorts.forM DeclaredSort.check

/-- A source is checked against the ids declared before it. -/
def DeclaredSource.check (earlier : List String) (source : DeclaredSource) :
    Except Defect Unit := do
  demand (!Text.isBlankString source.id) .blankSourceId
  demand (source.id != Source.cacheId) .reservedSourceId
  demand (Source.Kind.ofName? source.classification).isSome (.unknownClassification source.id)
  demand (!earlier.contains source.id) (.repeatedSourceId source.id)

def checkSources (earlier : List String) : List DeclaredSource → Except Defect Unit
  | [] => .ok ()
  | source :: sources => do
    source.check earlier
    checkSources (source.id :: earlier) sources

/-- The local catalog must be a declared source, and a local one. -/
def checkLocalCatalog (localCatalog : String) (sources : List DeclaredSource) :
    Except Defect Unit :=
  match sources.find? fun source => source.id == localCatalog with
  | some source => demand (source.classification == "local") .localCatalogNotLocal
  | none => .error .localCatalogUndeclared

/-- Succeeds on valid configurations only. -/
def validate (config : Config) : Except Defect Unit := do
  config.service.check
  config.catalog.check
  config.search.check
  checkSources [] config.sources
  checkLocalCatalog config.search.localCatalog config.sources

/-- A word of a configuration in its usual form. -/
def normalizeWord (word : String) : String := Text.lowercase (Text.strip word)

/-- A base address without slashes at its end. -/
def trimBase (base : String) : String :=
  String.ofList (base.toList.reverse.dropWhile (· == '/')).reverse

def Endpoint.normalize (endpoint : Endpoint) : Endpoint :=
  { endpoint with
    apiBase := trimBase endpoint.apiBase
    apiKey := endpoint.apiKey.filter fun key => !Text.isBlankString key }

def DeclaredSource.normalize (source : DeclaredSource) : DeclaredSource :=
  { source with
    id := Text.strip source.id
    classification := normalizeWord source.classification }

/-- The configuration in its usual form: a blank key is no key, and ids and words
lose the white space around them. -/
def normalize (config : Config) : Config :=
  { config with
    catalog := config.catalog.normalize
    search := { config.search with federation := normalizeWord config.search.federation }
    sources := config.sources.map DeclaredSource.normalize }

end CatalogSearch.Config
