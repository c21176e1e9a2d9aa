import CatalogSearch.Session.Basic

/-!
# Applying replies

Replies are applied when the owner of a session pulls them, and only those of the
running round; others are dropped.  A reply first brings the status board up to
date and then, if it is an answer, the view.  The last reply of a round settles
it.
-/

namespace CatalogSearch.Session

/-- The board brought up to date, with an event for each status that changed. -/
def setStatuses (session : Session) (changed : StatusBoard.Changed) : Session :=
  { session with statuses := changed.1 }.emitAll (changed.2.map .statusChanged)

/-- The board after an answer to a request for some sources.  Sources that it does
not report on are completed. -/
def answeredBoard (board : StatusBoard) (sources : List String) (reports : List Answer.Report) :
    StatusBoard.Changed :=
  let (reported, first) := board.reportAll reports
  let (completed, rest) := reported.complete sources
  (completed, first ++ rest)

/-- The view after the items of an answer arrived. -/
def viewWith (view : View) (asked : String) (items : List Answer.Item) : View :=
  let queued := view.enqueue asked items
  if queued.autoMerge then queued.merge else queued

/-- The items of an answer taken into the view, if there is one. -/
def addItems (session : Session) (asked : String) (items : List Answer.Item) : Session :=
  match session.view with
  | none => session
  | some view =>
    let view := viewWith view asked items
    { session with view := some view }.emit
      (.resultsChanged view.records.length view.queue.length)

def applyAnswer (session : Session) (request : Request) (answer : Answer) : Session :=
  (session.setStatuses (answeredBoard session.statuses request.sources answer.reports)).addItems
    (request.sources.head?.getD "") answer.items

def applyFailure (session : Session) (request : Request) (failure : Failure) : Session :=
  let session :=
    match failure with
    | .unauthorized source url => session.emit (.authenticationRequired source url)
    | _ => session
  session.setStatuses (session.statuses.fail request.sources)

/-- One request of the running round less; without any left the round is settled. -/
def countDown (session : Session) (answered : RoundId) : Session :=
  match session.round with
  | none => session
  | some round =>
    let outstanding := round.outstanding - 1
    if outstanding = 0 then { session with round := none }.emit (.settled answered)
    else { session with round := some { round with outstanding } }

def apply (session : Session) (arrival : Arrival) : Session :=
  let session :=
    match arrival.reply with
    | .ok answer => session.applyAnswer arrival.request answer
    | .error failure => session.applyFailure arrival.request failure
  session.countDown arrival.round

/-- The first arrival of a round in an inbox, and what follows it. -/
def takeArrival? (round : RoundId) : List Arrival → Option (Arrival × List Arrival)
  | [] => none
  | arrival :: rest =>
    if arrival.round = round then some (arrival, rest) else takeArrival? round rest

/-- Applies the next reply of the running round, if one has arrived. -/
def nextUpdate? (session : Session) : Option Session := do
  let round ← session.round
  let (arrival, rest) ← takeArrival? round.id session.inbox
  pure ({ session with inbox := rest }.apply arrival)

/-- Applies arrivals as long as a round is running, and counts those applied. -/
def applyAll (session : Session) : List Arrival → Session × Nat
  | [] => ({ session with inbox := [] }, 0)
  | arrival :: rest =>
    match session.round with
    | none => ({ session with inbox := arrival :: rest }, 0)
    | some round =>
      if arrival.round = round.id then
        let (session, count) := (session.apply arrival).applyAll rest
        (session, count + 1)
      else session.applyAll rest

/-- Applies every reply that has arrived. -/
def poll (session : Session) : Session × Nat := session.applyAll session.inbox

end CatalogSearch.Session
