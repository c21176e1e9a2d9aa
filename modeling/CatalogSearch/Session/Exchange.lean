import CatalogSearch.Session.Applying
import CatalogSearch.Session.Searching

/-!
# The exchange of a session

The exchange keeps every request that a session has sent, with whether it still
waits for a reply, and replies that sources have ready for requests to come.  When
an operation has to wait and nothing has arrived, all requests of the round that
wait run out of time, in the order in which they were sent.
-/

namespace CatalogSearch

/-- A request that was sent. -/
structure Call where
  request : Request
  waiting : Bool
deriving DecidableEq, Repr

structure Exchange where
  session : Session
  calls : List Call
  /-- What each source has ready for its next requests; nothing lets one wait. -/
  ready : Table (List (Option Reply))

namespace Exchange

def create (session : Session) : Exchange := ⟨session, [], []⟩

/-- Adds to what a source has ready. -/
def prepare (exchange : Exchange) (source : String) (replies : List (Option Reply)) : Exchange :=
  let earlier := (Table.find? source exchange.ready).getD []
  { exchange with ready := Table.insert source (earlier ++ replies) exchange.ready }

/-- Takes the next thing that a source has ready. -/
def takeReady (exchange : Exchange) (source : String) : Option Reply × Exchange :=
  match Table.find? source exchange.ready with
  | some (reply :: rest) =>
    (reply, { exchange with ready := Table.insert source rest exchange.ready })
  | _ => (none, exchange)

/-- The exchange with a change of its session. -/
def change (exchange : Exchange) (change : Session → Session) : Exchange :=
  { exchange with session := change exchange.session }

/-- Sends one request, which is answered at once if a reply is ready. -/
def send (exchange : Exchange) (request : Request) : Exchange :=
  let (reply, exchange) := exchange.takeReady (request.sources.head?.getD "")
  let exchange := { exchange with calls := exchange.calls ++ [⟨request, reply.isNone⟩] }
  match reply with
  | none => exchange
  | some reply => exchange.change fun session => session.deliver ⟨request, reply⟩

/-- Whether a call waits for a reply.  Those of rounds that were given up do not. -/
def isWaiting (exchange : Exchange) (call : Call) : Bool :=
  call.waiting &&
    match exchange.session.round with
    | some round => call.request.round == round.id
    | none => false

/-- Replies to a call, if it still waits. -/
def reply? (exchange : Exchange) (index : Nat) (reply : Reply) : Option Exchange := do
  let call ← exchange.calls[index]?
  if exchange.isWaiting call then
    let calls := exchange.calls.set index { call with waiting := false }
    pure ({ exchange with calls }.change fun session => session.deliver ⟨call.request, reply⟩)
  else none

/-- All calls that wait run out of time. -/
def expire (exchange : Exchange) : Exchange :=
  let late := exchange.calls.filter exchange.isWaiting
  let calls := exchange.calls.map fun call =>
    if exchange.isWaiting call then { call with waiting := false } else call
  { exchange with calls }.change fun session =>
    late.foldl (fun session (call : Call) => session.deliver ⟨call.request, .error .timedOut⟩)
      session

/-- Runs a search and sends its requests. -/
def search (exchange : Exchange) (run : Session → Session.Searched) :
    Except SearchFault SearchOutcome × Exchange :=
  let (outcome, session) := run exchange.session
  let requests := match outcome with
    | .ok outcome => outcome.requests
    | .error _ => []
  (outcome, requests.foldl send { exchange with session })

/-- Runs a search that may not come about, and sends its requests if it does. -/
def search? (exchange : Exchange) (run : Session → Option Session.Searched) :
    Option (Except SearchFault SearchOutcome × Exchange) :=
  (run exchange.session).map fun searched => exchange.search fun _ => searched

def poll (exchange : Exchange) : Exchange × Nat :=
  let (session, count) := exchange.session.poll
  ({ exchange with session }, count)

/-- Applies the next reply of the running round, waiting for it if necessary. -/
def nextUpdate? (exchange : Exchange) : Option Exchange :=
  match exchange.session.nextUpdate? with
  | some session => some { exchange with session }
  | none =>
    let exchange := exchange.expire
    exchange.session.nextUpdate?.map fun session => { exchange with session }

/-- Applies all replies of the running round, waiting for those that are missing. -/
def settle (exchange : Exchange) : Exchange :=
  let (exchange, _) := exchange.poll
  let (exchange, _) := exchange.expire.poll
  exchange

/-- Asks the local catalog and, if a wanted record is missing, every source. -/
def searchTiered (exchange : Exchange) (wanted : List String) :
    Except SearchFault TieredOutcome × Exchange :=
  let (outcome, exchange) := exchange.search Session.startLocal
  match outcome with
  | .error fault => (.error fault, exchange)
  | .ok (.dispatched round requests) =>
    let exchange := exchange.settle
    let (outcome, session) := exchange.session.widen wanted (.dispatched round requests)
    let requests := match outcome with
      | .ok tiered => if tiered.escalated then tiered.outcome.requests else []
      | .error _ => []
    (outcome, requests.foldl send { exchange with session })
  | .ok outcome => (.ok ⟨false, outcome⟩, exchange)

/-- The same, if the query has changed since it was last run. -/
def searchTieredIfOutdated? (exchange : Exchange) (wanted : List String) :
    Option (Except SearchFault TieredOutcome × Exchange) :=
  if exchange.session.query.outdated then some (exchange.searchTiered wanted) else none

end Exchange

end CatalogSearch
