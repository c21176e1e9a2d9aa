import CatalogSearch.Proofs.Session.Operation

/-!
# What operations do to a round

Whatever an operation is, it has one of a few effects on the running round, the
board, the inbox and the events about rounds: none, the end of the round, or a
new round in its place.  Only the two that pull replies do anything else.  What
`Effect` says about an operation is all that later proofs need to know of it.
-/

namespace CatalogSearch

/-- The round that an event tells of. -/
def Event.round? : Event → Option RoundId
  | searchStarted round | settled round | cancelled round => some round
  | _ => none

namespace Session

/-- The session with another inbox. -/
def withInbox (session : Session) (inbox : List Arrival) : Session := { session with inbox }

/-- The session of a query that is as it was last run. -/
def refreshed (session : Session) : Session :=
  { session with query := { session.query with outdated := false } }

/-- What is told of the running round when it is given up. -/
def farewell (session : Session) : List Event :=
  (session.round.map fun round => .cancelled round.id).toList

theorem emitAll_eq (session : Session) (events : List Event) :
    session.emitAll events = { session with log := events.foldl EventLog.push session.log } := by
  induction events generalizing session with
  | nil => rfl
  | cons event events ih =>
    rw [emitAll, List.foldl_cons]
    exact ih (session.emit event)

theorem toList_foldl_push (log : EventLog) (events : List Event) :
    (events.foldl EventLog.push log).toList = log.toList ++ events := by
  induction events generalizing log with
  | nil => simp
  | cons event events ih => simp [ih]

/-! ## Giving up a round -/

@[simp]
theorem round_cancel (session : Session) : session.cancel.round = none := by
  unfold cancel
  cases h : session.round with
  | none => exact h
  | some round => rfl

@[simp]
theorem inbox_cancel (session : Session) : session.cancel.inbox = [] := rfl

@[simp]
theorem rounds_cancel (session : Session) : session.cancel.rounds = session.rounds := by
  unfold cancel
  cases session.round <;> rfl

@[simp]
theorem statuses_cancel (session : Session) :
    session.cancel.statuses = session.statuses.finish := by
  unfold cancel
  cases session.round <;> rfl

theorem view_cancel (session : Session) :
    session.cancel.view = session.view.map View.emptyQueue := by
  unfold cancel
  cases session.round <;> rfl

@[simp]
theorem toList_log_cancel (session : Session) :
    session.cancel.log.toList = session.log.toList ++ session.farewell := by
  unfold cancel farewell
  cases session.round <;> simp [emit]

theorem cancel_withInbox (session : Session) (inbox : List Arrival) :
    (session.withInbox inbox).cancel = session.cancel := by
  obtain ⟨query, surroundings, tracker, statuses, view, round⟩ := session
  cases round <;> rfl

/-! ## Starting a search -/

/-- A search is refused for an empty filter or a page size of zero; otherwise the
running round is given up and the next one sent. -/
theorem start_eq (session : Session) (options : SearchOptions) :
    session.start options =
      if session.query.filter.isEmpty then (.ok .emptyFilter, session.refreshed)
      else if session.surroundings.pageSize = 0 && !options.countOnly then
        (.error .zeroPageSize, session.refreshed)
      else
        (.ok (session.refreshed.cancel.dispatch options).1,
          (session.refreshed.cancel.dispatch options).2) := rfl

/-- Without requests a round is not sent: the board shows the seeds. -/
theorem dispatch_of_nextRequests_nil {session : Session} {options : SearchOptions}
    (h : (session.prepare options).nextRequests options = []) :
    session.dispatch options =
      (.nothingToRun,
        { session.prepare options with statuses := .start [] options.seedStatuses }.emit
          (.warning ("Search \"" ++ session.query.title ++ "\" cannot be run.")
            "No sources are selected.")) := by
  unfold dispatch
  simp only [h]
  rfl

theorem dispatch_of_nextRequests_ne_nil {session : Session} {options : SearchOptions}
    (h : (session.prepare options).nextRequests options ≠ []) :
    session.dispatch options =
      (.dispatched (session.rounds + 1) ((session.prepare options).nextRequests options),
        { session.prepare options with
          statuses :=
            .start (askedSources ((session.prepare options).nextRequests options))
              options.seedStatuses
          round := some ⟨session.rounds + 1,
            ((session.prepare options).nextRequests options).length⟩
          searched := true
          rounds := session.rounds + 1 }.emit (.searchStarted (session.rounds + 1))) := by
  unfold dispatch
  simp only
  rfl

/-- A hook cannot move a request to another round. -/
theorem round_of_mem_nextRequests (session : Session) (options : SearchOptions)
    {request : Request} (h : request ∈ session.nextRequests options) :
    request.round = session.rounds + 1 := by
  unfold nextRequests hooked at h
  split at h
  · simp only [Request.split, Request.forGroup, List.mem_append, List.mem_map] at h
    rcases h with (h | ⟨id, -, rfl⟩) | h
    · split at h <;> simp_all [baseRequest]
    · rfl
    · split at h <;> simp_all [baseRequest]
  · obtain ⟨earlier, -, rfl⟩ := List.mem_map.1 h
    rfl

/-! ## Effects -/

/-- The effect of an operation that does not pull: on the running round, the
number of rounds, the inbox, the board and the events about rounds. -/
inductive Effect (seeds : List Status) (session after : Session) : List Request → Prop
  /-- Round, inbox and board stay, and no event tells of a round. -/
  | quiet (events : List Event)
      (hround : after.round = session.round) (hrounds : after.rounds = session.rounds)
      (hinbox : after.inbox = session.inbox) (hstatuses : after.statuses = session.statuses)
      (hlog : after.log.toList = session.log.toList ++ events)
      (hevents : ∀ event ∈ events, event.round? = none) :
      Effect seeds session after []
  /-- The running round is given up. -/
  | ended (events : List Event)
      (hround : after.round = none) (hrounds : after.rounds = session.rounds)
      (hinbox : after.inbox = [])
      (hstatuses : after.statuses = session.statuses.finish ∨ after.statuses = .start [] seeds)
      (hlog : after.log.toList = session.log.toList ++ session.farewell ++ events)
      (hevents : ∀ event ∈ events, event.round? = none) :
      Effect seeds session after []
  /-- The running round is given up and the next one sent. -/
  | sent (requests : List Request) (hrequests : requests ≠ [])
      (hround : after.round = some ⟨session.rounds + 1, requests.length⟩)
      (hrounds : after.rounds = session.rounds + 1) (hinbox : after.inbox = [])
      (hstatuses : after.statuses = .start (askedSources requests) seeds)
      (hlog : after.log.toList =
        session.log.toList ++ session.farewell ++ [.searchStarted (session.rounds + 1)])
      (hof : ∀ request ∈ requests, request.round = session.rounds + 1) :
      Effect seeds session after requests

/-- An operation that touches nothing but query, paging and view. -/
theorem Effect.of_silent {seeds : List Status} {session after : Session}
    (hround : after.round = session.round) (hrounds : after.rounds = session.rounds)
    (hinbox : after.inbox = session.inbox) (hstatuses : after.statuses = session.statuses)
    (hlog : after.log = session.log) : Effect seeds session after [] :=
  .quiet [] hround hrounds hinbox hstatuses (by simp [hlog]) (by simp)

theorem effect_start (session : Session) (options : SearchOptions) :
    Effect options.seedStatuses session (sending (session.start options)).1
      (sending (session.start options)).2 := by
  rw [start_eq]
  split
  · exact .of_silent rfl rfl rfl rfl rfl
  split
  · exact .of_silent rfl rfl rfl rfl rfl
  by_cases h : (session.refreshed.cancel.prepare options).nextRequests options = []
  · rw [dispatch_of_nextRequests_nil h]
    refine .ended
      [.warning ("Search \"" ++ session.refreshed.cancel.query.title ++ "\" cannot be run.")
        "No sources are selected."] ?_ ?_ ?_ (.inr rfl) ?_ (by simp [Event.round?])
    · exact round_cancel session.refreshed
    · exact rounds_cancel session.refreshed
    · exact inbox_cancel session.refreshed
    · exact (EventLog.toList_push ..).trans
        (congrArg (· ++ [_]) (toList_log_cancel session.refreshed))
  · rw [dispatch_of_nextRequests_ne_nil h]
    have hrounds : session.refreshed.cancel.rounds = session.rounds :=
      rounds_cancel session.refreshed
    refine .sent _ h ?_ ?_ (inbox_cancel session.refreshed) rfl ?_ ?_
    · exact congrArg (fun rounds => some (Round.mk (rounds + 1) _)) hrounds
    · exact congrArg (· + 1) hrounds
    · rw [← hrounds]
      exact (EventLog.toList_push ..).trans
        (congrArg (· ++ [_]) (toList_log_cancel session.refreshed))
    · intro request hrequest
      rw [← hrounds]
      exact round_of_mem_nextRequests (session.refreshed.cancel.prepare options) options hrequest

/-- A change of the tracker or the query before a search changes nothing else that
an effect tells of. -/
theorem Effect.of_start {seeds : List Status} {session before : Session}
    {options : SearchOptions} (hseeds : options.seedStatuses = seeds)
    (hround : before.round = session.round) (hrounds : before.rounds = session.rounds)
    (hinbox : before.inbox = session.inbox) (hstatuses : before.statuses = session.statuses)
    (hlog : before.log = session.log) :
    Effect seeds session (sending (before.start options)).1
      (sending (before.start options)).2 := by
  have hfarewell : before.farewell = session.farewell := by
    unfold farewell
    rw [hround]
  subst hseeds
  have heffect := effect_start before options
  revert heffect
  generalize (sending (before.start options)).2 = requests
  rintro (⟨events, h1, h2, h3, h4, h5, h6⟩ | ⟨events, h1, h2, h3, h4, h5, h6⟩ |
    ⟨requests, h1, h2, h3, h4, h5, h6, h7⟩)
  · exact .quiet events (h1.trans hround) (h2.trans hrounds) (h3.trans hinbox)
      (h4.trans hstatuses) (by rw [h5, hlog]) h6
  · exact .ended events h1 (h2.trans hrounds) h3 (by rwa [← hstatuses])
      (by rw [h5, hlog, hfarewell]) h6
  · rw [hrounds] at h2 h3 h6 h7
    exact .sent requests h1 h2 h3 h4 h5 (by rw [h6, hlog, hfarewell]) h7

/-- The local results as far as they are known when a tiered search is widened. -/
def settledView (view : View) : View := if view.queue.isEmpty then view else view.merge

/-- The search of every source that keeps what the local one found. -/
def searchWider (session : Session) (view : View) : Searched :=
  { session with
    view := some view
    query := { session.query with federation := .enterprise } }.start
    { seedResults := view.records, seedStatuses := session.statuses }

theorem widen_eq (session : Session) (wanted : List String) (found : SearchOutcome) :
    session.widen wanted found =
      match session.view with
      | none => (.ok ⟨false, found⟩, session)
      | some view =>
        if wanted.all (settledView view).contains then
          (.ok ⟨false, found⟩, { session with view := some (settledView view) })
        else
          ((session.searchWider (settledView view)).1.map fun outcome => ⟨true, outcome⟩,
            (session.searchWider (settledView view)).2) := rfl

theorem sendingTiered_wider (searched : Searched) :
    sendingTiered (searched.1.map fun outcome => ⟨true, outcome⟩, searched.2) =
      sending searched := by
  obtain ⟨_ | outcome, session⟩ := searched <;> rfl

theorem effect_widen (session : Session) (wanted : List String) (found : SearchOutcome) :
    Effect session.statuses session (sendingTiered (session.widen wanted found)).1
      (sendingTiered (session.widen wanted found)).2 := by
  rw [widen_eq]
  split
  · exact .of_silent rfl rfl rfl rfl rfl
  split
  · exact .of_silent rfl rfl rfl rfl rfl
  · rw [sendingTiered_wider]
    exact .of_start rfl rfl rfl rfl rfl rfl

end Session

/-- What an operation does that does not pull. -/
theorem Operation.effect_run (session : Session) {operation : Operation}
    (h : operation.pulls = false) :
    Session.Effect (operation.seeds session) session (operation.run session).1
      (operation.run session).2 := by
  cases operation with
  | start options => exact Session.effect_start session options
  | startFromFirstPage options => exact .of_start rfl rfl rfl rfl rfl rfl
  | startIfOutdated =>
    rw [run_startIfOutdated]
    split
    · exact Session.effect_start session {}
    · exact .of_silent rfl rfl rfl rfl rfl
  | nextPage => exact .of_start rfl rfl rfl rfl rfl rfl
  | previousPage =>
    simp only [run, Session.previousPage]
    split
    · exact .of_silent rfl rfl rfl rfl rfl
    · exact .of_start rfl rfl rfl rfl rfl rfl
  | startLocal => exact .of_start rfl rfl rfl rfl rfl rfl
  | widen wanted found =>
    simp only [run, seeds]
    split
    · exact .of_silent rfl rfl rfl rfl rfl
    · exact Session.effect_widen session wanted found
  | cancel =>
    exact .ended [] (Session.round_cancel session) (Session.rounds_cancel session) rfl
      (.inl (Session.statuses_cancel session)) (by simp [run]) (by simp)
  | clearResults =>
    exact .ended [] (Session.round_cancel session) (Session.rounds_cancel session) rfl
      (.inr rfl) ((Session.toList_log_cancel session).trans (by simp)) (by simp)
  | setFilter | setFederation | setSources | setSourcesFromRegistry =>
    exact .quiet [.outdated] rfl rfl rfl rfl (EventLog.toList_push ..) (by simp [Event.round?])
  | setSorts sorts =>
    exact .quiet [.outdated] rfl rfl rfl rfl (EventLog.toList_push ..) (by simp [Event.round?])
  | preferencesChanged | setPageSize | setHook | setAutoMerge =>
    exact .of_silent rfl rfl rfl rfl rfl
  | mergeResults =>
    simp only [run, Session.mergeResults]
    split
    · exact .of_silent rfl rfl rfl rfl rfl
    · exact .quiet [.resultsChanged _ _] rfl rfl rfl rfl (EventLog.toList_push ..)
        (by simp [Event.round?])
  | nextUpdate | poll => contradiction

end CatalogSearch
