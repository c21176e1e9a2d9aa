import CatalogSearch.Catalog.Fault
import CatalogSearch.Cql.Fault

/-!
# Faults of a search

Why a search or a query could not be set up.
-/

namespace CatalogSearch

inductive SearchFault
  | zeroPageSize
  | unreadableText (error : Cql.TextError)
  | client (fault : Catalog.Fault)
  | unknownFederation (name : String)
  | unknownDirection (name : String)
  | unknownClassification (name source : String)
deriving DecidableEq, Repr

namespace SearchFault

def message : SearchFault → String
  | zeroPageSize =>
    "Invalid request: result_count preference must be greater than zero."
  | unreadableText error => "Invalid filter: " ++ error.message
  | client fault => "Provider error: " ++ fault.message
  | unknownFederation name => "Configuration error: unknown federation '" ++ name ++ "'."
  | unknownDirection name => "Configuration error: unknown sort direction '" ++ name ++ "'."
  | unknownClassification name source =>
    "Configuration error: unknown classification '" ++ name ++ "' for " ++ source ++ "."

end SearchFault

end CatalogSearch
