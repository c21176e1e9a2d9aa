import CatalogSearch.Catalog.Headers
import CatalogSearch.Config.Basic
import CatalogSearch.Json.Reader
import CatalogSearch.Json.Writer
import CatalogSearch.Request

/-!
# The catalog client

A client posts the body of a request to one address.  What comes back over the
network is read here: a refusal may name the source that wants a login and where,
and any other status outside the two hundreds is a failure.
-/

namespace CatalogSearch.Catalog

structure Response where
  code : Nat
  body : String
deriving DecidableEq, Repr

/-- What a client posts. -/
structure Posting where
  url : String
  headers : Headers
  timeout : UInt64
  body : String
deriving DecidableEq, Repr

/-- The network as a client sees it. -/
abbrev Network := Posting → Except Interruption Response

/-- A network on which nothing can be reached. -/
def offline : Network := fun _ => .error .unreachable

structure Client where
  url : String
  headers : Headers
  timeout : UInt64
deriving DecidableEq, Repr

/-- How deep the body of a response may nest. -/
def bodyLevels : Nat := 127

def Client.create (endpoint : Config.Endpoint) : Except Fault Client := do
  let headers ← authHeaders endpoint.apiKey endpoint.defaultHeaders
  .ok ⟨endpoint.apiBase ++ endpoint.queryPath, headers, endpoint.timeout⟩

/-- The source and the address of its login in the body of a refusal. -/
def loginOf (body : Json) : Option String × Option String :=
  let text (value : Option Json) := (Json.nullable Json.text) (value.getD .null)
  let both (id url : Option Json) :=
    match text id, text url with
    | some id, some url => (id, url)
    | _, _ => (none, none)
  match body with
  | .object _ => both (body.field? "id") (body.field? "url")
  | .array [url, id] => both (some id) (some url)
  | _ => (none, none)

/-- The value that a response brings. -/
def Response.read (response : Response) : Except Fault Json :=
  let body := Json.read? bodyLevels response.body
  if response.code = 401 then
    let (source, url) := loginOf (body.getD .null)
    .error (.unauthorized source url)
  else if response.code < 200 || 300 ≤ response.code then .error (.refused response.code)
  else
    match body with
    | some value => .ok value
    | none => .error .unreadableBody

/-- The value that a client gets for a body. -/
def Client.post (client : Client) (network : Network) (body : Json) : Except Fault Json :=
  match network ⟨client.url, client.headers, client.timeout, body.compress⟩ with
  | .error cause => .error (.interrupted cause)
  | .ok response => response.read

/-- What a fault means for the sources of a request. -/
def Fault.failure (fault : Fault) (request : Request) : Failure :=
  match fault with
  | .interrupted .outOfTime => .timedOut
  | .unauthorized source url =>
    .unauthorized (source.getD (request.sources.head?.getD "unknown")) url
  | fault => .failed fault.message

/-- The answer that a client gets to a request, for a given name of its round. -/
def Client.ask (client : Client) (network : Network) (roundName : String) (request : Request) :
    Except Failure Answer :=
  match client.post network (request.toJson roundName) with
  | .error fault => .error (fault.failure request)
  | .ok value =>
    match Answer.decode value with
    | some answer => .ok answer
    | none => .error .malformed

end CatalogSearch.Catalog
