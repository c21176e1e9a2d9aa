import CatalogSearch.Session.Applying
import CatalogSearch.Session.Searching

/-!
# Operations of a session

Everything that the owner of a session can do with it, as data, so that one can
speak of every order of operations.  To wait until a search settles is to pull one
update after the other, and a tiered search is its two halves with such a wait
between them; replies may arrive at any time in between.

The page size and the hook belong to the surroundings of a session; they may change
between any two operations, and with them what the hook makes of the same requests.
-/

namespace CatalogSearch

inductive Operation
  | start (options : SearchOptions)
  | startFromFirstPage (options : SearchOptions)
  | startIfOutdated
  | nextPage
  | previousPage
  /-- The first half of a tiered search. -/
  | startLocal
  /-- The second half of a tiered search, after what the first one came to. -/
  | widen (wanted : List String) (found : SearchOutcome)
  | cancel
  | clearResults
  | setFilter (filter : Filter)
  | setSorts (sorts : List SortKey)
  | setFederation (federation : Federation)
  | setSources (sources : List String)
  | setSourcesFromRegistry
  | preferencesChanged
  | setPageSize (pageSize : UInt32)
  | setHook (hook : Option (List Request → List Request))
  | setAutoMerge (autoMerge : Bool)
  | mergeResults
  | nextUpdate
  | poll

namespace Session

def setHook (session : Session) (hook : Option (List Request → List Request)) : Session :=
  { session with surroundings := { session.surroundings with hook } }

/-- The session after a search, and the requests that the search sent. -/
def sending (searched : Searched) : Session × List Request :=
  (searched.2, match searched.1 with
    | .ok outcome => outcome.requests
    | .error _ => [])

/-- The session after a tiered search was widened, and the requests of the wider
round, if there is one. -/
def sendingTiered (searched : Except SearchFault TieredOutcome × Session) :
    Session × List Request :=
  (searched.2, match searched.1 with
    | .ok tiered => if tiered.escalated then tiered.outcome.requests else []
    | .error _ => [])

end Session

namespace Operation

/-- The session after an operation, and the requests that the operation sent. -/
def run (session : Session) : Operation → Session × List Request
  | start options => Session.sending (session.start options)
  | startFromFirstPage options => Session.sending (session.startFromFirstPage options)
  | startIfOutdated => (session.startIfOutdated?.map Session.sending).getD (session, [])
  | nextPage => Session.sending session.nextPage
  | previousPage => Session.sending session.previousPage
  | startLocal => Session.sending session.startLocal
  | widen wanted found =>
    -- the wider search waits until the local round is over
    if session.round.isSome then (session, [])
    else Session.sendingTiered (session.widen wanted found)
  | cancel => (session.cancel, [])
  | clearResults => (session.clearResults, [])
  | setFilter filter => (session.setFilter filter, [])
  | setSorts sorts => (session.setSorts sorts, [])
  | setFederation federation => (session.setFederation federation, [])
  | setSources sources => (session.setSources sources, [])
  | setSourcesFromRegistry => (session.setSourcesFromRegistry, [])
  | preferencesChanged => (session.preferencesChanged, [])
  | setPageSize pageSize => (session.setPageSize pageSize, [])
  | setHook hook => (session.setHook hook, [])
  | setAutoMerge autoMerge => (session.setAutoMerge autoMerge, [])
  | mergeResults => (session.mergeResults, [])
  | nextUpdate => (session.nextUpdate?.getD session, [])
  | poll => (session.poll.1, [])

/-- The same, unless turning the page forms a sum that passes a word. -/
def run? (session : Session) : Operation → Option (Session × List Request)
  | nextPage => session.nextPage?.map Session.sending
  | operation => some (operation.run session)

theorem run_startIfOutdated (session : Session) :
    run session startIfOutdated =
      if session.query.outdated then Session.sending (session.start {}) else (session, []) := by
  rw [run, Session.startIfOutdated?]
  split <;> rfl

/-- To set the filter by a text is to set the filter that the text is read as. -/
theorem run_setFilter_of_setCql {session after : Session} {text : String}
    (h : session.setCql text = .ok after) :
    ∃ filter, Cql.parse text = .ok filter ∧ run session (setFilter filter) = (after, []) := by
  unfold Session.setCql at h
  split at h
  · rename_i filter hread
    cases h
    exact ⟨filter, hread, rfl⟩
  · cases h

/-- Whether an operation reads the replies that have arrived. -/
def pulls : Operation → Bool
  | nextUpdate | poll => true
  | _ => false

/-- The statuses that the caller of an operation seeds a search with. -/
def callerSeeds : Operation → List Status
  | start options | startFromFirstPage options => options.seedStatuses
  | _ => []

/-- The statuses that a search starts from: those of its caller, or those that the
local round of a tiered search left. -/
def seeds (session : Session) : Operation → List Status
  | widen _ _ => if session.round.isSome then [] else session.statuses
  | operation => operation.callerSeeds

end Operation

end CatalogSearch
