import CatalogSearch.Catalog.Client
import CatalogSearch.CommandLine.Arguments
import CatalogSearch.Config.Validation
import CatalogSearch.Session.Applying
import CatalogSearch.Session.Searching

/-!
# Running the command line

A run searches as its arguments say and tells of each page in one document, once
the round of the page has settled.
-/

namespace CatalogSearch.CommandLine

/-- Why a run ended early. -/
inductive RunFault
  | search (fault : SearchFault)
  | unreadableText (error : Cql.TextError)
  | unknownFederation
deriving DecidableEq, Repr

def RunFault.message : RunFault → String
  | search fault => fault.message
  | unreadableText error => error.message
  | unknownFederation => "--federation must be local, enterprise or selected."

/-- The title of the queries that the command line makes. -/
def queryTitle : String := "ddf-query"

/-- The query with the text of the arguments. -/
def withText (query : Query) : Option String → Except RunFault Query
  | none => .ok query
  | some text =>
    match Cql.parse text with
    | .ok filter => .ok { query with filter }
    | .error error => .error (.unreadableText error)

/-- The query with the sources of the arguments, which select themselves. -/
def withSources (query : Query) (sources : List String) : Query :=
  if sources.isEmpty then query else { query with sources, federation := .selected }

def withFederation (query : Query) : Option String → Except RunFault Query
  | none => .ok query
  | some word =>
    match Federation.ofWord? word with
    | some federation => .ok { query with federation }
    | none => .error .unknownFederation

/-- The query that the arguments ask for. -/
def Arguments.query (id : String) (arguments : Arguments) (config : Config) :
    Except RunFault Query := do
  let query ← (Query.withDefaults id queryTitle config.search).mapError .search
  let query ← withText query arguments.cql
  withFederation (withSources query arguments.sources) arguments.federation

/-- The session of a run. -/
def sessionFor (query : Query) (config : Config) : Except SearchFault Session :=
  config.registry.map fun registry =>
    Session.create query
      { registry
        pageSize := config.search.resultCount
        timeout := config.catalog.timeout
        hook := none }

/-- What a page shows. -/
def pageDocument (page : Nat) (session : Session) : Json :=
  let records := match session.view with
    | none => []
    | some view => view.records
  .ofFields
    [("page", .ofNat page),
      ("range", .string (session.rangeLabel (UInt64.ofNat records.length))),
      ("totalHits", .ofNat session.totalHits.toNat),
      ("statuses", .array (session.statuses.map Status.toJson)),
      ("results", .array (records.map Result.toJson))]

/-- The session after a catalog answered some requests and all replies were
applied. -/
def serve (catalog : Request → Reply) (requests : List Request) (session : Session) : Session :=
  (requests.foldl (fun session request => session.deliver ⟨request, catalog request⟩)
    session).poll.1

/-- The documents of a run, and why it ended early. -/
abbrev Report := List Json × Option RunFault

/-- Shows the page of the running round and goes on to the next one, as long as
there is one and pages are left.  The pages are counted from `page` to `last`. -/
def walk (catalog : Request → Reply) (last page : Nat) (requests : List Request)
    (session : Session) : Nat → Report
  | 0 => ([], none)
  | left + 1 =>
    let session := serve catalog requests session
    let document := pageDocument page session
    if page = last || !session.hasNextPage then ([document], none)
    else
      match session.nextPage with
      | (.error fault, _) => ([document], some (.search fault))
      | (.ok outcome, session) =>
        let (documents, fault) := walk catalog last (page + 1) outcome.requests session left
        (document :: documents, fault)

/-- The outcome of the first search of a run. -/
def firstSearch (catalog : Request → Reply) (arguments : Arguments) (session : Session) :
    Session.Searched :=
  if arguments.tieredIds.isEmpty then
    session.start { limitToDeleted := arguments.deleted, limitToHistoric := arguments.historic }
  else
    match session.startLocal with
    | (.ok (.dispatched round requests), session) =>
      let session := serve catalog requests session
      let (outcome, session) := session.widen arguments.tieredIds (.dispatched round requests)
      (outcome.map TieredOutcome.outcome, session)
    | searched => searched

/-- Walks the pages of a session, asking a catalog. -/
def search (catalog : Request → Reply) (arguments : Arguments) (session : Session) : Report :=
  match firstSearch catalog arguments session with
  | (.error fault, _) => ([], some (.search fault))
  | (.ok (.dispatched _ requests), session) =>
    let requests := if session.round.isSome then requests else []
    walk catalog arguments.pages.toNat 1 requests session (max arguments.pages.toNat 1)
  | (.ok _, _) => ([], none)

/-- Runs the command line over a network.  Rounds get their names on the wire from
`roundName`. -/
def run (network : Catalog.Network) (roundName : RoundId → String) (queryId : String)
    (arguments : Arguments) (config : Config) : Report :=
  match arguments.query queryId config with
  | .error fault => ([], some fault)
  | .ok query =>
    match sessionFor query config, Catalog.Client.create config.catalog with
    | .error fault, _ => ([], some (.search fault))
    | .ok _, .error fault => ([], some (.search (.client fault)))
    | .ok session, .ok client =>
      search (fun request => client.ask network (roundName request.round) request) arguments
        session

end CatalogSearch.CommandLine
