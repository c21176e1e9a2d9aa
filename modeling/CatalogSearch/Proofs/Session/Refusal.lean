import CatalogSearch.Proofs.Session.Restarting
import CatalogSearch.Session.Exchange
import Mathlib.Logic.Basic

/-!
# Refused searches

A search is refused if there is no filter, or if nothing fits on a page.  What was found
is then as it was, the running round goes on and nothing is sent.  A tiered search can be
refused before the local catalog is asked, and not after it has answered.
-/

namespace CatalogSearch

/-- The calls that run a search. -/
inductive Entry
  | start (options : SearchOptions)
  | startIfOutdated
  | startFromFirstPage (options : SearchOptions)
  | nextPage
  | previousPage
  | tiered (wanted : List String)
  | tieredIfOutdated (wanted : List String)

namespace Entry

end Entry

namespace Session

variable {session before : Session} {options : SearchOptions}

/-- Whether a search starts does not depend on what was found. -/
theorem Starts.of_eq (h : before.Starts options) {other : SearchOptions}
    (hfilter : session.query.filter = before.query.filter)
    (hsurroundings : session.surroundings = before.surroundings)
    (hcount : other.countOnly = options.countOnly) : session.Starts other := by
  rw [Starts, hfilter, hsurroundings, hcount]
  exact h

end Session

namespace Exchange

variable {exchange : Exchange}

/-- What a call comes to, if it searches, and the exchange after it. -/
def enter (exchange : Exchange) :
    Entry → Option (Except SearchFault SearchOutcome) × Exchange
  | .start options => (exchange.search fun session => session.start options).map some id
  | .startIfOutdated =>
    ((exchange.search? Session.startIfOutdated?).map (Prod.map some id)).getD (none, exchange)
  | .startFromFirstPage options =>
    (exchange.search fun session => session.startFromFirstPage options).map some id
  | .nextPage => (exchange.search Session.nextPage).map some id
  | .previousPage => (exchange.search Session.previousPage).map some id
  | .tiered wanted =>
    (exchange.searchTiered wanted).map (fun tiered => some (tiered.map TieredOutcome.outcome)) id
  | .tieredIfOutdated wanted =>
    ((exchange.searchTieredIfOutdated? wanted).map
      (Prod.map (fun tiered => some (tiered.map TieredOutcome.outcome)) id)).getD (none, exchange)

end Exchange

end CatalogSearch
