import CatalogSearch.Session.Basic

/-!
# Searching

A search cancels the running round and sends a new one, from the staged page on,
unless the filter is empty or the page size is zero.  A tiered search asks the
local catalog first and then every source, if a wanted record is missing.
-/

namespace CatalogSearch

/-- How one search differs from another of the same query. -/
structure SearchOptions where
  limitToDeleted : Bool := false
  limitToHistoric : Bool := false
  /-- Asks for hits only. -/
  countOnly : Bool := false
  seedResults : List Result := []
  seedStatuses : List Status := []

inductive SearchOutcome
  | dispatched (round : RoundId) (requests : List Request)
  /-- The filter is written as no text. -/
  | emptyFilter
  /-- There was no source to ask. -/
  | nothingToRun
  | noPreviousPage
deriving DecidableEq, Repr

structure TieredOutcome where
  escalated : Bool
  outcome : SearchOutcome
deriving DecidableEq, Repr

namespace SearchOutcome

/-- The requests that were sent. -/
def requests : SearchOutcome → List Request
  | dispatched _ requests => requests
  | _ => []

end SearchOutcome

/-- The tag that records must carry under some options.  Deleted records come
before historic ones. -/
def SearchOptions.tag? (options : SearchOptions) : Option String :=
  if options.limitToDeleted then some "deleted"
  else if options.limitToHistoric then some "revision"
  else none

/-- A filter restricted to records with a tag. -/
def Filter.tagged (filter : Filter) (tag : String) : Filter :=
  filter.both (.matching "metacard-tags" tag)

namespace Session

/-- What became of a search, and the session after it. -/
abbrev Searched := Except SearchFault SearchOutcome × Session

/-- Gives up the running round.  Results in view stay, queued ones are dropped. -/
def cancel (session : Session) : Session :=
  let session :=
    match session.round with
    | none => session
    | some round => { session with round := none }.emit (.cancelled round.id)
  { session with
    statuses := session.statuses.finish
    view := session.view.map View.emptyQueue
    inbox := [] }

/-- Gives up the running round and everything that was found. -/
def clearResults (session : Session) : Session :=
  { session.cancel with view := none, searched := false, statuses := [] }

/-- The filter that a search sends. -/
def sentFilter (session : Session) (options : SearchOptions) : Filter :=
  match options.tag? with
  | some tag => session.query.filter.tagged tag
  | none => session.query.filter

/-- What the requests of the next round have in common. -/
def baseRequest (session : Session) (options : SearchOptions) : Request :=
  { sources := []
    cql := Cql.toText (session.sentFilter options)
    start := 1
    count := if options.countOnly then 0 else session.surroundings.pageSize
    sorts := session.query.sorts
    timeout := session.surroundings.timeout
    queryId := session.query.id
    round := session.rounds + 1
    spellcheck := session.query.spellcheck
    phonetics := session.query.phonetics
    group := .localSites }

/-- The requests after the hook.  A hook cannot move a request to another round. -/
def hooked (session : Session) (round : RoundId) (requests : List Request) : List Request :=
  match session.surroundings.hook with
  | none => requests
  | some hook => (hook requests).map fun request => { request with round }

/-- The requests of the next round. -/
def nextRequests (session : Session) (options : SearchOptions) : List Request :=
  session.hooked (session.rounds + 1)
    ((session.baseRequest options).split session.selectedSources session.registry
      session.tracker)

/-- The session with view and tracker set up for a new round. -/
def prepare (session : Session) (options : SearchOptions) : Session :=
  let sorts := session.query.sorts
  { session with
    view := some ((session.view.getD (.empty sorts)).restart sorts options.seedResults)
    tracker := session.tracker.beginRound }

/-- The sources that some requests ask, each once. -/
def askedSources (requests : List Request) : List String :=
  (requests.flatMap Request.sources).eraseDups

/-- Sends a round, if it has any requests. -/
def dispatch (session : Session) (options : SearchOptions) : SearchOutcome × Session :=
  let session := session.prepare options
  match session.nextRequests options with
  | [] =>
    (.nothingToRun,
      { session with statuses := .start [] options.seedStatuses }.emit
        (.warning ("Search \"" ++ session.query.title ++ "\" cannot be run.")
          "No sources are selected."))
  | requests =>
    let round := session.rounds + 1
    (.dispatched round requests,
      { session with
        statuses := .start (askedSources requests) options.seedStatuses
        round := some ⟨round, requests.length⟩
        searched := true
        rounds := round }.emit (.searchStarted round))

/-- Starts a search from the staged page on. -/
def start (session : Session) (options : SearchOptions) : Searched :=
  let session := { session with query := { session.query with outdated := false } }
  if session.query.filter.isEmpty then (.ok .emptyFilter, session)
  else if session.surroundings.pageSize = 0 && !options.countOnly then
    (.error .zeroPageSize, session)
  else
    let (outcome, session) := session.cancel.dispatch options
    (.ok outcome, session)

/-- Starts a search if the query has changed since it was last run. -/
def startIfOutdated? (session : Session) : Option Searched :=
  if session.query.outdated then some (session.start {}) else none

def startFromFirstPage (session : Session) (options : SearchOptions) : Searched :=
  { session with tracker := .fresh }.start options

/-- Starts a search with the page after the current one. -/
def nextPage (session : Session) : Searched :=
  let tracker :=
    session.tracker.advance session.selectedSources session.registry session.statuses
  { session with tracker }.start {}

/-- Starts a search with the page after the current one, unless turning the page forms a sum
that passes a word. -/
def nextPage? (session : Session) : Option Searched := do
  let tracker ←
    session.tracker.advance? session.selectedSources session.registry session.statuses
  some ({ session with tracker }.start {})

/-- Starts a search with the page before the current one, if there is one. -/
def previousPage (session : Session) : Searched :=
  match session.tracker.retreat? with
  | none => (.ok .noPreviousPage, session)
  | some tracker => { session with tracker }.start {}

def hasNextPage (session : Session) : Bool :=
  session.tracker.hasNext session.registry session.statuses

/-- Whether there is a next page, unless finding out forms a sum that passes a word. -/
def hasNextPage? (session : Session) : Option Bool :=
  session.tracker.hasNext? session.registry session.statuses

def hasPreviousPage (session : Session) : Bool := session.tracker.hasPrevious

/-- The first half of a tiered search, which asks the local catalog. -/
def startLocal (session : Session) : Searched :=
  { session with query := { session.query with federation := .localCatalog } }.start {}

/-- The second half of a tiered search, once the local round has settled.  If a
wanted record is missing, every source is asked, and what the local round found is
kept. -/
def widen (session : Session) (wanted : List String) (outcome : SearchOutcome) :
    Except SearchFault TieredOutcome × Session :=
  match session.view with
  | none => (.ok ⟨false, outcome⟩, session)
  | some view =>
    let view := if view.queue.isEmpty then view else view.merge
    let session := { session with view := some view }
    if wanted.all view.contains then (.ok ⟨false, outcome⟩, session)
    else
      let query := { session.query with federation := .enterprise }
      let (result, session) := { session with query }.start
        { seedResults := view.records, seedStatuses := session.statuses }
      (result.map fun outcome => ⟨true, outcome⟩, session)

end Session

end CatalogSearch
