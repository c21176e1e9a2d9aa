import CatalogSearch.Request
import CatalogSearch.Source.Status

/-!
# Events and subscriptions

A session tells its subscribers what happens, in order.  A subscription sees the
events after it was made; one that falls behind misses all but the latest ones.
-/

namespace CatalogSearch

inductive Event
  | searchStarted (round : RoundId)
  | statusChanged (status : Status)
  | resultsChanged (total queued : Nat)
  | settled (round : RoundId)
  | cancelled (round : RoundId)
  | outdated
  | warning (title message : String)
  | authenticationRequired (source : String) (url : Option String)
deriving DecidableEq, Repr

/-- All events so far, the latest first. -/
structure EventLog where
  latestFirst : List Event
deriving DecidableEq, Repr

namespace EventLog

def empty : EventLog := ⟨[]⟩

def push (log : EventLog) (event : Event) : EventLog := ⟨event :: log.latestFirst⟩

def size (log : EventLog) : Nat := log.latestFirst.length

/-- The events in the order in which they happened. -/
def toList (log : EventLog) : List Event := log.latestFirst.reverse

@[simp]
theorem toList_empty : empty.toList = [] := rfl

@[simp]
theorem toList_push (log : EventLog) (event : Event) :
    (log.push event).toList = log.toList ++ [event] := by
  simp [push, toList]

end EventLog

/-- A reader of events, by how many of them lie behind it. -/
structure Subscription where
  passed : Nat
deriving DecidableEq, Repr

namespace Subscription

/-- How many events are kept for a subscription that falls behind. -/
def capacity : Nat := 256

/-- A subscription to what happens from now on. -/
def start (log : EventLog) : Subscription := ⟨log.size⟩

/-- The events that a subscription still sees. -/
def waiting (subscription : Subscription) (log : EventLog) : List Event :=
  (log.latestFirst.take (min capacity (log.size - subscription.passed))).reverse

/-- The next event, and the subscription after it. -/
def receive? (subscription : Subscription) (log : EventLog) : Option (Event × Subscription) :=
  match subscription.waiting log with
  | [] => none
  | event :: rest => some (event, ⟨log.size - rest.length⟩)

/-- All events that a subscription still sees, and the subscription after them. -/
def drain (subscription : Subscription) (log : EventLog) : List Event × Subscription :=
  (subscription.waiting log, start log)

end Subscription

end CatalogSearch
