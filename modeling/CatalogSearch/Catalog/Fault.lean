/-!
# Faults of a catalog client

Why a client cannot be made, or why a request brought back no answer.
-/

namespace CatalogSearch

namespace Catalog

/-- Why nothing came back over the network. -/
inductive Interruption
  | unreachable
  | outOfTime
deriving DecidableEq, Repr

inductive Fault
  | headerName
  | headerValue
  | headerNotText
  | interrupted (cause : Interruption)
  | unauthorized (source url : Option String)
  | refused (code : Nat)
  | unreadableBody
deriving DecidableEq, Repr

namespace Fault

def message : Fault → String
  | headerName => "invalid HTTP header name"
  | headerValue => "failed to parse header value"
  | headerNotText => "Default header values must be strings."
  | interrupted .unreachable => "error sending request"
  | interrupted .outOfTime => "operation timed out"
  | unauthorized source _ => "Source " ++ source.getD "unknown" ++ " is not authenticated."
  | refused code => "Catalog responded with HTTP " ++ toString code ++ "."
  | unreadableBody => "error decoding response body"

end Fault

end Catalog

/-- Why a source gave no page. -/
inductive Failure
  | unauthorized (source : String) (url : Option String)
  | timedOut
  | malformed
  | failed (message : String)
deriving DecidableEq, Repr

end CatalogSearch
