import CatalogSearch.Catalog.Fault
import CatalogSearch.Json.Basic
import CatalogSearch.Text.Characters

/-!
# Headers of requests

A catalog is asked with an authorization header, if there is a key, and with the
default headers of its configuration.  Header names are kept in small letters, and
of several headers with one name the last one counts.
-/

namespace CatalogSearch.Catalog

/-- The characters of header names besides letters and digits. -/
def nameMarks : List Char := "!#$%&'*+-.^_`|~".toList

def isNameCharacter (c : Char) : Bool := c.isAlphanum || nameMarks.contains c

/-- The longest header name. -/
def nameLimit : Nat := 65535

/-- The name of a header as it is kept. -/
def headerName (name : String) : Except Fault String :=
  let characters := name.toList
  if !characters.isEmpty && characters.length ≤ nameLimit && characters.all isNameCharacter then
    .ok (Text.lowercase name)
  else .error .headerName

/-- Control characters, tabs apart, cannot stand in the value of a header. -/
def isValueCharacter (c : Char) : Bool := (32 ≤ c.toNat && c.toNat ≠ 127) || c == '\t'

def headerValue (value : String) : Except Fault String :=
  if value.toList.all isValueCharacter then .ok value else .error .headerValue

abbrev Headers := Table String

/-- The headers with one more default header. -/
def addHeader (headers : Headers) (name : String) (value : Json) : Except Fault Headers := do
  match value.asString? with
  | none => .error .headerNotText
  | some text =>
    let name ← headerName name
    let text ← headerValue text
    .ok (Table.insert name text headers)

def addHeaders (headers : Headers) : List (String × Json) → Except Fault Headers
  | [] => .ok headers
  | entry :: rest => do
    let headers ← addHeader headers entry.1 entry.2
    addHeaders headers rest

/-- The headers for a key and some default headers. -/
def authHeaders (apiKey : Option String) (defaults : Table Json) : Except Fault Headers := do
  let headers ← match apiKey with
    | none => .ok []
    | some key => do
      let value ← headerValue ("Bearer " ++ key)
      .ok [("authorization", value)]
  addHeaders headers defaults

end CatalogSearch.Catalog
