import CatalogSearch.Proofs.Session.Pulling

/-!
# What a search sends

A search that is not refused sends the requests of its round, made after one base
request: all that differs between them is what they ask and where they start, and
they start at the offsets that were staged.  `Request.mem_split` is all that later
proofs need to know of how a round is split.
-/

namespace CatalogSearch

namespace Request

/-- The requests for the local sites, for each federated site and for the cache. -/
theorem mem_split {base request : Request} {selected : List String} {registry : Registry}
    {tracker : PageTracker} :
    request ∈ base.split selected registry tracker ↔
      (request = base.forGroup tracker .localSites (selected.filter registry.isLocal) ∧
        selected.filter registry.isLocal ≠ []) ∨
      (∃ id ∈ selected.filter registry.isFederated,
        request = base.forGroup tracker (.site id) [id]) ∨
      (request =
          { base.forGroup tracker .cache [Source.cacheId] with
            cql := narrow base.cql (selected.filter fun id => id != Source.cacheId) } ∧
        registry.cacheEnabled = true ∧
        selected.filter (fun id => id != Source.cacheId) ≠ []) := by
  unfold split
  rw [List.append_assoc, List.mem_append, List.mem_append, List.mem_ite_nil_left,
    List.mem_ite_nil_right, List.mem_singleton, List.mem_singleton, List.mem_map]
  refine or_congr ?_ (or_congr ?_ ?_)
  · rw [List.isEmpty_iff, and_comm]
  · simp only [eq_comm]
  · rw [Bool.and_eq_true, Bool.not_eq_true', List.isEmpty_eq_false_iff, and_comm]

/-- A request starts where its group was staged to. -/
theorem start_of_mem_split {base request : Request} {selected : List String}
    {registry : Registry} {tracker : PageTracker}
    (h : request ∈ base.split selected registry tracker) :
    request.start = tracker.startOf request.group.key := by
  obtain ⟨rfl, -⟩ | ⟨id, -, rfl⟩ | ⟨rfl, -⟩ := mem_split.1 h <;> rfl

/-- Only the cache is asked with another text than the rest. -/
theorem cql_of_mem_split {base request : Request} {selected : List String}
    {registry : Registry} {tracker : PageTracker}
    (h : request ∈ base.split selected registry tracker) :
    request.cql =
      if request.group = .cache then
        narrow base.cql (selected.filter fun id => id != Source.cacheId)
      else base.cql := by
  obtain ⟨rfl, -⟩ | ⟨id, -, rfl⟩ | ⟨rfl, -⟩ := mem_split.1 h <;> rfl

/-- The cache is asked only about sources that there are. -/
theorem real_of_mem_split {base request : Request} {selected : List String}
    {registry : Registry} {tracker : PageTracker}
    (h : request ∈ base.split selected registry tracker) (hcache : request.group = .cache) :
    selected.filter (fun id => id != Source.cacheId) ≠ [] := by
  obtain ⟨rfl, -⟩ | ⟨id, -, rfl⟩ | ⟨rfl, -, hreal⟩ := mem_split.1 h
  · cases hcache
  · cases hcache
  · exact hreal

end Request

namespace Session

/-- Whether a search is not refused. -/
def Starts (session : Session) (options : SearchOptions) : Prop :=
  session.query.filter.isEmpty = false ∧
    (session.surroundings.pageSize = 0 → options.countOnly = true)

/-- The requests of the round that a search sends. -/
def roundRequests (session : Session) (options : SearchOptions) : List Request :=
  session.hooked (session.rounds + 1)
    ((session.baseRequest options).split session.selectedSources session.registry
      session.tracker.beginRound)

theorem nextRequests_prepare (session : Session) (options : SearchOptions) :
    (session.refreshed.cancel.prepare options).nextRequests options =
      session.roundRequests options := by
  obtain ⟨query, surroundings, tracker, statuses, view, _ | round⟩ := session <;> rfl

theorem round_of_mem_roundRequests {session : Session} {options : SearchOptions}
    {request : Request} (h : request ∈ session.roundRequests options) :
    request.round = session.rounds + 1 := by
  rw [← nextRequests_prepare] at h
  have hrounds : session.refreshed.cancel.rounds = session.rounds :=
    rounds_cancel session.refreshed
  rw [← hrounds]
  exact round_of_mem_nextRequests (session.refreshed.cancel.prepare options) options h

/-- What a search leaves as it was, or as it was prepared. -/
structure Prepared (session after : Session) : Prop where
  query : after.query = session.refreshed.query
  surroundings : after.surroundings = session.surroundings
  tracker : after.tracker = session.tracker.beginRound

theorem prepared_dispatch (session : Session) (options : SearchOptions) :
    Prepared session (session.refreshed.cancel.dispatch options).2 := by
  by_cases h : (session.refreshed.cancel.prepare options).nextRequests options = []
  · rw [dispatch_of_nextRequests_nil h]
    obtain ⟨query, surroundings, tracker, statuses, view, _ | round⟩ := session <;>
      exact ⟨rfl, rfl, rfl⟩
  · rw [dispatch_of_nextRequests_ne_nil h]
    obtain ⟨query, surroundings, tracker, statuses, view, _ | round⟩ := session <;>
      exact ⟨rfl, rfl, rfl⟩

theorem requests_dispatch (session : Session) (options : SearchOptions) :
    (session.refreshed.cancel.dispatch options).1.requests = session.roundRequests options := by
  rw [← nextRequests_prepare]
  by_cases h : (session.refreshed.cancel.prepare options).nextRequests options = []
  · rw [dispatch_of_nextRequests_nil h, h]
    rfl
  · rw [dispatch_of_nextRequests_ne_nil h]
    rfl

/-- A search that is not refused sends its round. -/
theorem start_of_starts {session : Session} {options : SearchOptions}
    (h : session.Starts options) :
    session.start options =
      (.ok (session.refreshed.cancel.dispatch options).1,
        (session.refreshed.cancel.dispatch options).2) := by
  obtain ⟨hfilter, hsize⟩ := h
  have hrefused : ¬(session.surroundings.pageSize = 0 && !options.countOnly) = true := by
    simpa using hsize
  rw [start_eq, hfilter, if_neg Bool.false_ne_true, if_neg (by simpa using hrefused)]

/-- A search that is refused sends nothing. -/
theorem start_of_not_starts {session : Session} {options : SearchOptions}
    (h : ¬session.Starts options) :
    sending (session.start options) = (session.refreshed, []) := by
  rw [start_eq]
  split
  · rfl
  · rename_i hfilter
    split
    · rfl
    · rename_i hsize
      exact absurd ⟨by simpa using hfilter, by simpa using hsize⟩ h

theorem sent_start_of_starts {session : Session} {options : SearchOptions}
    (h : session.Starts options) :
    (sending (session.start options)).2 = session.roundRequests options := by
  rw [start_of_starts h]
  exact requests_dispatch session options

theorem prepared_start_of_starts {session : Session} {options : SearchOptions}
    (h : session.Starts options) : Prepared session (sending (session.start options)).1 := by
  rw [start_of_starts h]
  exact prepared_dispatch session options

theorem tracker_start (session : Session) (options : SearchOptions) :
    (session.start options).2.tracker = session.tracker.beginRound ∨
      (session.start options).2.tracker = session.tracker := by
  by_cases h : session.Starts options
  · exact .inl (prepared_start_of_starts h).tracker
  · have hrefused : (session.start options).2 = session.refreshed :=
      congrArg Prod.fst (start_of_not_starts h)
    rw [hrefused]
    exact .inr rfl

/-- A search leaves alone what is staged. -/
theorem next_start (session : Session) (options : SearchOptions) :
    (session.start options).2.tracker.next = session.tracker.next := by
  obtain htracker | htracker := tracker_start session options
  · rw [htracker]
    rfl
  · rw [htracker]

/-- A search turns no page. -/
theorem history_start (session : Session) (options : SearchOptions) :
    (session.start options).2.tracker.history = session.tracker.history := by
  obtain htracker | htracker := tracker_start session options
  · rw [htracker]
    rfl
  · rw [htracker]

/-- Turning the page stages the offsets after the statuses on the board. -/
theorem next_nextPage (session : Session) :
    session.nextPage.2.tracker.next =
      session.tracker.following session.selectedSources session.registry session.statuses :=
  next_start _ {}

theorem previousPage_of_none {session : Session}
    (h : session.tracker.retreat? = none) :
    session.previousPage = (.ok .noPreviousPage, session) := by
  rw [previousPage, h]

theorem previousPage_of_some {session : Session} {tracker : PageTracker}
    (h : session.tracker.retreat? = some tracker) :
    session.previousPage = { session with tracker }.start {} := by
  rw [previousPage, h]

/-- A search that sends a request was not refused. -/
theorem starts_of_mem_sent {session : Session} {options : SearchOptions} {request : Request}
    (h : request ∈ (sending (session.start options)).2) : session.Starts options := by
  refine Classical.byContradiction fun hrefused => ?_
  rw [start_of_not_starts hrefused] at h
  cases h

/-- Without a hook the requests are those that the selected sources are split into. -/
theorem roundRequests_of_unhooked {session : Session} (h : session.surroundings.hook = none)
    (options : SearchOptions) :
    session.roundRequests options =
      (session.baseRequest options).split session.selectedSources session.registry
        session.tracker.beginRound := by
  rw [roundRequests, hooked, h]

/-- The session once a round of some requests was sent. -/
def sendRound (session : Session) (options : SearchOptions) (requests : List Request) :
    Session :=
  { session.refreshed.cancel.prepare options with
    statuses := .start (askedSources requests) options.seedStatuses
    round := some ⟨session.rounds + 1, requests.length⟩
    searched := true
    rounds := session.rounds + 1 }.emit (.searchStarted (session.rounds + 1))

/-- All that there is to a search that sends a round. -/
theorem start_eq_dispatched_iff {session after : Session} {options : SearchOptions}
    {round : RoundId} {requests : List Request} :
    session.start options = (.ok (.dispatched round requests), after) ↔
      session.Starts options ∧ requests = session.roundRequests options ∧ requests ≠ [] ∧
        round = session.rounds + 1 ∧ after = session.sendRound options requests := by
  have hrounds : session.refreshed.cancel.rounds = session.rounds :=
    rounds_cancel session.refreshed
  by_cases hstarts : session.Starts options
  · rw [start_of_starts hstarts]
    by_cases hsome : session.roundRequests options = []
    · have hnone := (nextRequests_prepare session options).trans hsome
      rw [dispatch_of_nextRequests_nil hnone]
      constructor
      · rintro ⟨⟩
      · rintro ⟨-, rfl, hne, -⟩
        exact absurd hsome hne
    · have hnext := nextRequests_prepare session options
      rw [dispatch_of_nextRequests_ne_nil (hnext ▸ hsome), hnext, hrounds]
      constructor
      · rintro ⟨⟩
        exact ⟨hstarts, rfl, hsome, rfl, rfl⟩
      · rintro ⟨-, rfl, -, rfl, rfl⟩
        rfl
  · constructor
    · intro h
      rw [start_eq] at h
      split at h
      · cases h
      · split at h
        · cases h
        · rename_i hfilter hsize
          exact absurd ⟨by simpa using hfilter, by simpa using hsize⟩ hstarts
    · exact fun h => absurd h.1 hstarts

/-- The board of a round that was sent: its sources are asked, and seeds stay otherwise. -/
theorem statuses_of_sent {before session : Session} {options : SearchOptions} {round : RoundId}
    {requests : List Request}
    (hsent : before.start options = (.ok (.dispatched round requests), session)) :
    session.statuses = .start (askedSources requests) options.seedStatuses := by
  obtain ⟨-, -, -, -, rfl⟩ := start_eq_dispatched_iff.1 hsent
  rfl

theorem prepared_of_sent {before session : Session} {options : SearchOptions} {round : RoundId}
    {requests : List Request}
    (hsent : before.start options = (.ok (.dispatched round requests), session)) :
    Prepared before session := by
  have hstarts := (start_eq_dispatched_iff.1 hsent).1
  have hprepared := prepared_start_of_starts hstarts
  rwa [hsent] at hprepared

/-! ## What pulling and giving up leave alone -/

/-- Query, surroundings and tracker are as they were. -/
structure Keeps (session after : Session) : Prop where
  query : after.query = session.query
  surroundings : after.surroundings = session.surroundings
  tracker : after.tracker = session.tracker

theorem Keeps.refl (session : Session) : Keeps session session := ⟨rfl, rfl, rfl⟩

theorem Keeps.trans {session between after : Session} (h : Keeps session between)
    (hrest : Keeps between after) : Keeps session after :=
  ⟨hrest.query.trans h.query, hrest.surroundings.trans h.surroundings,
    hrest.tracker.trans h.tracker⟩

theorem Prepared.keeps {session between after : Session} (h : Prepared session between)
    (hrest : Keeps between after) : Prepared session after :=
  ⟨hrest.query.trans h.query, hrest.surroundings.trans h.surroundings,
    hrest.tracker.trans h.tracker⟩

/-- After a search, the statuses on the board decide whether there is a next page. -/
theorem Prepared.hasNextPage {session after : Session} (h : Prepared session after) :
    after.hasNextPage =
      session.tracker.beginRound.hasNext session.registry after.statuses := by
  rw [Session.hasNextPage, registry, h.surroundings, h.tracker]
  rfl

/-- After a search, the statuses on the board decide what is staged for the next page. -/
theorem Prepared.staged {session after : Session} (h : Prepared session after) :
    after.nextPage.2.tracker.next =
      session.tracker.beginRound.following session.selectedSources session.registry
        after.statuses := by
  rw [next_nextPage, selectedSources, registry, h.query, h.surroundings, h.tracker]
  rfl

theorem keeps_cancel (session : Session) : Keeps session session.cancel := by
  unfold cancel
  cases session.round <;> exact ⟨rfl, rfl, rfl⟩

theorem keeps_countDown (session : Session) (id : RoundId) :
    Keeps session (session.countDown id) := by
  unfold countDown
  cases session.round with
  | none => exact .refl session
  | some round =>
    dsimp only
    split <;> exact ⟨rfl, rfl, rfl⟩

theorem keeps_apply (session : Session) (arrival : Arrival) :
    Keeps session (session.apply arrival) := by
  have hrecord : Keeps session (session.record arrival) := by
    rw [record_eq]
    exact ⟨rfl, rfl, rfl⟩
  rw [apply_eq]
  exact hrecord.trans (keeps_countDown _ _)

theorem keeps_applyAll (session : Session) (arrivals : List Arrival) :
    Keeps session (session.applyAll arrivals).1 := by
  induction arrivals generalizing session with
  | nil => exact ⟨rfl, rfl, rfl⟩
  | cons arrival rest ih =>
    rw [applyAll]
    cases session.round with
    | none => exact ⟨rfl, rfl, rfl⟩
    | some round =>
      dsimp only
      split
      · exact (keeps_apply session arrival).trans (ih _)
      · exact ih session

theorem keeps_nextUpdate (session : Session) :
    Keeps session (session.nextUpdate?.getD session) := by
  cases hround : session.round with
  | none =>
    have hnone : session.nextUpdate? = none := by
      rw [nextUpdate?, hround]
      rfl
    rw [hnone]
    exact .refl session
  | some round =>
    rw [nextUpdate?_eq hround]
    cases takeArrival? round.id session.inbox with
    | none => exact .refl session
    | some taken =>
      have hinbox : Keeps session (session.withInbox taken.2) := ⟨rfl, rfl, rfl⟩
      exact hinbox.trans (keeps_apply _ _)

end Session

/-! ## The search that an operation runs -/

namespace Operation

/-- Whether an operation turns a page, forward or back. -/
def turnsPage : Operation → Bool
  | nextPage | previousPage => true
  | _ => false

/-- Whether an operation is one half of a tiered search. -/
def isTier : Operation → Bool
  | startLocal | widen _ _ => true
  | _ => false

/-- Whether an operation changes the query or the surroundings by hand. -/
def adjusts : Operation → Bool
  | setFilter _ | setSorts _ | setFederation _ | setSources _ | setSourcesFromRegistry
  | preferencesChanged | setPageSize _ | setHook _ => true
  | _ => false

/-- Whether an operation may run a search. -/
def searches : Operation → Bool
  | start _ | startFromFirstPage _ | startIfOutdated | nextPage | previousPage | startLocal
  | widen _ _ => true
  | _ => false

/-- The search that an operation runs, if it runs one: from which session, and how. -/
def search? (session : Session) : Operation → Option (Session × SearchOptions)
  | start options => some (session, options)
  | startFromFirstPage options => some ({ session with tracker := .fresh }, options)
  | startIfOutdated => if session.query.outdated then some (session, {}) else none
  | nextPage =>
    some ({ session with
      tracker := session.tracker.advance session.selectedSources session.registry
        session.statuses }, {})
  | previousPage => session.tracker.retreat?.map fun tracker => ({ session with tracker }, {})
  | startLocal =>
    some ({ session with query := { session.query with federation := .localCatalog } }, {})
  | widen wanted _ =>
    if session.round.isSome then none
    else
      session.view.bind fun view =>
        if wanted.all (Session.settledView view).contains then none
        else some ({ session with
          view := some (Session.settledView view)
          query := { session.query with federation := .enterprise } },
          { seedResults := (Session.settledView view).records, seedStatuses := session.statuses })
  | _ => none

theorem run_of_search? {session before : Session} {operation : Operation}
    {options : SearchOptions} (h : operation.search? session = some (before, options)) :
    operation.run session = Session.sending (before.start options) := by
  cases operation with
  | start | startFromFirstPage | nextPage | startLocal =>
    cases h
    rfl
  | startIfOutdated =>
    simp only [search?, Option.ite_none_right_eq_some] at h
    obtain ⟨houtdated, h⟩ := h
    cases h
    rw [run_startIfOutdated, if_pos houtdated]
  | previousPage =>
    obtain ⟨tracker, htracker, h⟩ := Option.map_eq_some_iff.1 h
    cases h
    rw [run, Session.previousPage_of_some htracker]
  | widen wanted found =>
    simp only [search?, Option.ite_none_left_eq_some, Option.bind_eq_some_iff] at h
    obtain ⟨hround, view, hview, hmissing, h⟩ := h
    cases h
    rw [run, if_neg hround, Session.widen_eq, hview]
    dsimp only
    rw [if_neg hmissing]
    exact Session.sendingTiered_wider _
  | _ => cases h

/-- An operation that might run a search and runs none has settled the view at most. -/
theorem run_of_search?_eq_none {session : Session} {operation : Operation}
    (hsearches : operation.searches = true) (h : operation.search? session = none) :
    operation.run session = (session, []) ∨
      operation.run session = (session.changeView Session.settledView, []) := by
  cases operation with
  | start | startFromFirstPage | nextPage | startLocal => cases h
  | startIfOutdated =>
    have houtdated : ¬session.query.outdated = true := by simpa [search?] using h
    rw [run_startIfOutdated, if_neg houtdated]
    exact .inl rfl
  | previousPage =>
    have htracker : session.tracker.retreat? = none := by simpa [search?] using h
    rw [run, Session.previousPage_of_none htracker]
    exact .inl rfl
  | widen wanted found =>
    rw [run]
    split
    · exact .inl rfl
    · rename_i hround
      rw [search?, if_neg hround] at h
      rw [Session.widen_eq, Session.changeView]
      cases hview : session.view with
      | none => exact .inl rfl
      | some view =>
        have hall : wanted.all (Session.settledView view).contains = true := by
          simpa [hview] using h
        dsimp only
        rw [if_pos hall]
        exact .inr rfl
  | _ => cases hsearches

/-- An operation that runs no search sends nothing. -/
theorem sent_of_search?_eq_none {session : Session} {operation : Operation}
    (h : operation.search? session = none) : (operation.run session).2 = [] := by
  cases hsearches : operation.searches with
  | true =>
    obtain hrun | hrun := run_of_search?_eq_none hsearches h <;> rw [hrun]
  | false => cases operation <;> first | rfl | cases hsearches

/-- An operation that runs no search and adjusts nothing leaves alone what searches depend
on. -/
theorem keeps_of_search?_eq_none {session : Session} {operation : Operation}
    (hadjusts : operation.adjusts = false) (h : operation.search? session = none) :
    session.Keeps (operation.run session).1 := by
  cases operation with
  | start | startFromFirstPage | startIfOutdated | nextPage | previousPage | startLocal
  | widen =>
    obtain hrun | hrun := run_of_search?_eq_none rfl h <;> rw [hrun] <;> exact ⟨rfl, rfl, rfl⟩
  | cancel | clearResults =>
    have hkeeps := Session.keeps_cancel session
    exact ⟨hkeeps.query, hkeeps.surroundings, hkeeps.tracker⟩
  | setAutoMerge => exact ⟨rfl, rfl, rfl⟩
  | mergeResults =>
    rw [run, Session.mergeResults]
    split <;> exact ⟨rfl, rfl, rfl⟩
  | nextUpdate => exact Session.keeps_nextUpdate session
  | poll => exact Session.keeps_applyAll session session.inbox
  | _ => cases hadjusts

end Operation

end CatalogSearch
