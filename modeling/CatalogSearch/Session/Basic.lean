import CatalogSearch.Catalog.Fault
import CatalogSearch.Cql.Parser
import CatalogSearch.Query.Basic
import CatalogSearch.Session.Event
import CatalogSearch.View.Basic

/-!
# Sessions

A session owns one query and runs it in rounds of requests.  Answers that arrive
wait in an inbox until the owner pulls them.  Every change of the query makes it
outdated and takes paging back to the first page.
-/

namespace CatalogSearch

/-- What came back for a request. -/
abbrev Reply := Except Failure Answer

/-- A request with what came back for it. -/
structure Arrival where
  request : Request
  reply : Reply

/-- The round of an arrival is that of its request. -/
def Arrival.round (arrival : Arrival) : RoundId := arrival.request.round

/-- A running round and the number of its requests that wait for a reply. -/
structure Round where
  id : RoundId
  outstanding : Nat
deriving DecidableEq, Repr

/-- What a session needs from its surroundings. -/
structure Surroundings where
  registry : Registry
  pageSize : UInt32
  /-- In milliseconds. -/
  timeout : UInt64
  /-- Rewrites the requests of a round before they are sent. -/
  hook : Option (List Request → List Request)

structure Session where
  query : Query
  surroundings : Surroundings
  tracker : PageTracker
  statuses : StatusBoard
  view : Option View
  round : Option Round
  inbox : List Arrival
  /-- Whether a round was sent since results were last cleared. -/
  searched : Bool
  /-- How many rounds were sent. -/
  rounds : Nat
  log : EventLog

namespace Session

inductive State
  | idle
  | searching
  | settled
deriving DecidableEq, Repr

def State.name : State → String
  | idle => "Idle"
  | searching => "Searching"
  | settled => "Settled"

def create (query : Query) (surroundings : Surroundings) : Session :=
  { query, surroundings
    tracker := .fresh
    statuses := []
    view := none
    round := none
    inbox := []
    searched := false
    rounds := 0
    log := .empty }

def state (session : Session) : State :=
  if session.round.isSome then .searching else if session.searched then .settled else .idle

def registry (session : Session) : Registry := session.surroundings.registry

def emit (session : Session) (event : Event) : Session :=
  { session with log := session.log.push event }

def emitAll (session : Session) (events : List Event) : Session := events.foldl emit session

def selectedSources (session : Session) : List String :=
  session.query.selectedSources session.registry

def totalHits (session : Session) : UInt64 := session.statuses.totalHits

/-- The hits of all sources, unless their sum passes a word. -/
def totalHits? (session : Session) : Option UInt64 := session.statuses.totalHits?

/-- The view changed, if there is one. -/
def changeView (session : Session) (change : View → View) : Session :=
  { session with view := session.view.map change }

/-- The session after a change of its query. -/
def edit (session : Session) (change : Query → Query) : Session :=
  { session with
    query := { change session.query with outdated := true }
    tracker := .fresh }.emit .outdated

def setFilter (session : Session) (filter : Filter) : Session :=
  session.edit fun query => { query with filter }

/-- Sets the filter that a text is read as. -/
def setCql (session : Session) (text : String) : Except SearchFault Session :=
  match Cql.parse text with
  | .ok filter => .ok (session.setFilter filter)
  | .error error => .error (.unreadableText error)

/-- New sort keys also sort the results in view. -/
def setSorts (session : Session) (sorts : List SortKey) : Session :=
  (session.changeView fun view => view.setSorts sorts).edit fun query => { query with sorts }

def setFederation (session : Session) (federation : Federation) : Session :=
  session.edit fun query => { query with federation }

def setSources (session : Session) (sources : List String) : Session :=
  session.edit fun query => { query with sources }

def setSourcesFromRegistry (session : Session) : Session :=
  session.setSources session.registry.availableIds

/-- A change of the page size makes the stored offsets worthless. -/
def preferencesChanged (session : Session) : Session := { session with tracker := .fresh }

def setPageSize (session : Session) (pageSize : UInt32) : Session :=
  { session with surroundings := { session.surroundings with pageSize } }

def setAutoMerge (session : Session) (autoMerge : Bool) : Session :=
  session.changeView fun view => view.setAutoMerge autoMerge

/-- Takes queued results into the view. -/
def mergeResults (session : Session) : Session :=
  match session.view with
  | none => session
  | some view =>
    let merged := view.merge
    { session with view := some merged }.emit (.resultsChanged merged.records.length 0)

/-- Describes the visible results of the current page by their positions among all
hits.  Positions are sixty-four bit words. -/
def rangeLabel (session : Session) (visible : UInt64) : String :=
  let hits := session.totalHits
  if visible = 0 then "0 results"
  else if hits < visible then toString visible ++ " results"
  else
    let pageSize := session.surroundings.pageSize.toUInt64
    let start := UInt64.ofNat session.tracker.pageIndex * pageSize
    toString (start + 1) ++ "-" ++ toString (start + visible) ++ " of " ++ toString hits

/-- The number of records that the pages before the staged one have room for, unless it passes a
word. -/
def pageStart? (session : Session) : Option UInt64 := do
  let pages ← Word.ofNat? session.tracker.pageIndex
  Word.mul? pages session.surroundings.pageSize.toUInt64

/-- The positions of the visible results, unless they pass a word. -/
def pageLabel? (session : Session) (visible hits : UInt64) : Option String := do
  let start ← session.pageStart?
  let first ← Word.add? start 1
  let last ← Word.add? start visible
  some (toString first ++ "-" ++ toString last ++ " of " ++ toString hits)

/-- Describes the visible results of the current page, unless the hits or a position pass a
word. -/
def rangeLabel? (session : Session) (visible : UInt64) : Option String := do
  let hits ← session.totalHits?
  if visible = 0 then some "0 results"
  else if hits < visible then some (toString visible ++ " results")
  else session.pageLabel? visible hits

/-- Puts an arrival into the inbox. -/
def deliver (session : Session) (arrival : Arrival) : Session :=
  { session with inbox := session.inbox ++ [arrival] }

end Session

end CatalogSearch
