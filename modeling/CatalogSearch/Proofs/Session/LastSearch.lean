import CatalogSearch.Proofs.Session.Restarting
import CatalogSearch.Proofs.Session.Turns

/-!
# What the state of a session tells

The state of a session tells whether a round is running and, if none is, whether a search
has sent one since results were last cleared.  That is whether the last search has, unless
that one found nothing to run: it gives up the running round, and otherwise leaves the state
to the searches before it.
-/

namespace CatalogSearch

namespace SearchOutcome

/-- Whether a round was sent. -/
def isSent : SearchOutcome → Bool
  | dispatched _ _ => true
  | _ => false

end SearchOutcome

namespace Session

/-- What a search came to, unless it was refused. -/
def cameTo? (searched : Searched) : Option SearchOutcome :=
  match searched.1 with
  | .ok .emptyFilter | .error _ => none
  | .ok outcome => some outcome

/-! ## Sessions in which no round starts -/

/-- No round has started: at most the running one is over. -/
structure Subsides (session after : Session) : Prop where
  searched : after.searched = session.searched
  running : ∀ round, after.round = some round →
    ∃ earlier, session.round = some earlier ∧ earlier.id = round.id

variable {session between after : Session}

theorem Subsides.of_eq (hsearched : after.searched = session.searched)
    (hround : after.round = session.round) : Subsides session after :=
  ⟨hsearched, fun round h => ⟨round, hround ▸ h, rfl⟩⟩

theorem Subsides.of_over (hsearched : after.searched = session.searched)
    (hround : after.round = none) : Subsides session after := by
  refine ⟨hsearched, fun round h => ?_⟩
  rw [hround] at h
  cases h

theorem Subsides.trans (h : Subsides session between) (hrest : Subsides between after) :
    Subsides session after := by
  refine ⟨hrest.searched.trans h.searched, fun round hround => ?_⟩
  obtain ⟨middle, hmiddle, hid⟩ := hrest.running round hround
  obtain ⟨earlier, hearlier, hid'⟩ := h.running middle hmiddle
  exact ⟨earlier, hearlier, hid'.trans hid⟩

@[simp]
theorem searched_cancel (session : Session) : session.cancel.searched = session.searched := by
  unfold cancel
  cases session.round <;> rfl

theorem subsides_cancel (session : Session) : Subsides session session.cancel :=
  .of_over (searched_cancel session) (round_cancel session)

theorem subsides_apply {round : Round} (h : session.round = some round) (arrival : Arrival) :
    Subsides session (session.apply arrival) := by
  refine ⟨searched_apply session arrival, fun later hlater => ⟨round, h, ?_⟩⟩
  rw [(of_round_apply h hlater).2]

theorem subsides_of_pulled {queue rest : List (Nat × Arrival)} {calls : List Nat}
    (h : Pulled session queue after rest calls) : Subsides session after := by
  induction h with
  | stop session => exact .of_eq rfl rfl
  | drop _ _ ih => exact ih
  | apply hcurrent _ ih =>
    obtain ⟨round, hround, -⟩ := isCurrent_iff.1 hcurrent
    exact (subsides_apply hround _).trans ih

/-! ## One search -/

/-- What a search does to the state, by what it comes to. -/
inductive Ran (session after : Session) : Option SearchOutcome → Prop
  | refused (h : Subsides session after) : Ran session after none
  | empty (hsearched : after.searched = session.searched) (hround : after.round = none) :
      Ran session after (some .nothingToRun)
  | sent (round : Round) (requests : List Request) (hsearched : after.searched = true)
      (hround : after.round = some round) :
      Ran session after (some (.dispatched round.id requests))

theorem ran_start (session : Session) (options : SearchOptions) :
    Ran session (session.start options).2 (cameTo? (session.start options)) := by
  rw [start_eq]
  split
  · exact .refused (.of_eq rfl rfl)
  split
  · exact .refused (.of_eq rfl rfl)
  by_cases h : (session.refreshed.cancel.prepare options).nextRequests options = []
  · rw [dispatch_of_nextRequests_nil h]
    exact .empty (searched_cancel session.refreshed) (round_cancel session.refreshed)
  · rw [dispatch_of_nextRequests_ne_nil h]
    exact .sent ⟨_, _⟩ _ rfl rfl

end Session

namespace Operation

open Session (Subsides)

variable {session before : Session} {operation : Operation}

/-- What the search that an operation runs comes to, if there is one that is not refused. -/
def outcome? (session : Session) (operation : Operation) : Option SearchOutcome :=
  (operation.search? session).bind fun search => Session.cameTo? (search.1.start search.2)

/-- Before a search no more than the query, the tracker and the view are changed. -/
theorem before_of_search? {options : SearchOptions}
    (h : operation.search? session = some (before, options)) :
    ∃ query tracker view, before = { session with query, tracker, view } := by
  cases operation with
  | start | startFromFirstPage | nextPage | startLocal =>
    cases h
    exact ⟨_, _, _, rfl⟩
  | startIfOutdated =>
    simp only [search?, Option.ite_none_right_eq_some] at h
    cases h.2
    exact ⟨_, _, _, rfl⟩
  | previousPage =>
    obtain ⟨tracker, -, h⟩ := Option.map_eq_some_iff.1 h
    cases h
    exact ⟨_, _, _, rfl⟩
  | widen =>
    simp only [search?, Option.ite_none_left_eq_some, Option.bind_eq_some_iff] at h
    obtain ⟨-, view, -, -, h⟩ := h
    cases h
    exact ⟨_, _, _, rfl⟩
  | _ => cases h

/-- An operation that pulls replies starts no round. -/
theorem subsides_of_pulls (session : Session) (h : operation.pulls = true) :
    Subsides session (operation.run session).1 := by
  obtain ⟨front, rest, after, hpull⟩ :=
    Traffic.exists_pullsOut session h (session.inbox.map fun arrival => (0, arrival))
  have hqueue : session.inbox = (session.inbox.map fun arrival => (0, arrival)).map Prod.snd := by
    rw [List.map_map]
    exact (List.map_id session.inbox).symm
  rw [Traffic.run_of_pullsOut hpull hqueue]
  exact (Session.subsides_of_pulled hpull.pulled).trans (.of_eq rfl rfl)

/-- An operation that runs no search starts no round. -/
theorem subsides_of_search?_eq_none (h : operation.search? session = none)
    (hclears : operation ≠ .clearResults) : Subsides session (operation.run session).1 := by
  cases operation with
  | start | startFromFirstPage | startIfOutdated | nextPage | previousPage | startLocal
  | widen =>
    obtain hrun | hrun := run_of_search?_eq_none rfl h <;> rw [hrun] <;> exact .of_eq rfl rfl
  | cancel => exact Session.subsides_cancel session
  | clearResults => exact absurd rfl hclears
  | setFilter | setSorts | setFederation | setSources | setSourcesFromRegistry
  | preferencesChanged | setPageSize | setHook | setAutoMerge => exact .of_eq rfl rfl
  | mergeResults =>
    rw [run, Session.mergeResults]
    split <;> exact .of_eq rfl rfl
  | nextUpdate | poll => exact subsides_of_pulls session rfl

theorem ran_run (hclears : operation ≠ .clearResults) :
    Session.Ran session (operation.run session).1 (operation.outcome? session) := by
  rw [outcome?]
  cases hsearch : operation.search? session with
  | none => exact .refused (subsides_of_search?_eq_none hsearch hclears)
  | some search =>
    obtain ⟨before, options⟩ := search
    rw [run_of_search? hsearch, Option.bind_some]
    obtain ⟨query, tracker, view, rfl⟩ := before_of_search? hsearch
    have hran := Session.ran_start { session with query, tracker, view } options
    dsimp only
    generalize Session.cameTo? _ = outcome at hran ⊢
    cases hran with
    | refused h => exact .refused ⟨h.searched, h.running⟩
    | empty hsearched hround => exact .empty hsearched hround
    | sent round requests hsearched hround => exact .sent round requests hsearched hround

end Operation

/-! ## Whole runs -/

namespace Traffic

/-- What searches came to since results were last cleared, after one more action. -/
def noted (session : Session) (earlier : List SearchOutcome) : Action → List SearchOutcome
  | .operate .clearResults => []
  | .operate operation => earlier ++ (operation.outcome? session).toList
  | .answer _ _ => earlier

/-- What the searches of a run that were not refused came to since results were last cleared,
in the order in which they were run. -/
def outcomes (traffic : Traffic) (earlier : List SearchOutcome) :
    List Action → List SearchOutcome
  | [] => earlier
  | action :: actions =>
    (traffic.act action).outcomes (noted traffic.session earlier action) actions

end Traffic

namespace Session

/-- The session has kept up with what its searches came to since results were last cleared. -/
structure Follows (session : Session) (outcomes : List SearchOutcome) : Prop where
  searched : session.searched = outcomes.any SearchOutcome.isSent
  running : ∀ round, session.round = some round →
    ∃ requests, outcomes.getLast? = some (.dispatched round.id requests)
  started : ∀ outcome ∈ outcomes, outcome.isSent = false → outcome = .nothingToRun

variable {session after : Session} {outcomes : List SearchOutcome}

theorem Follows.subsides (h : Follows session outcomes) (hsubsides : Subsides session after) :
    Follows after outcomes := by
  refine ⟨hsubsides.searched.trans h.searched, fun round hround => ?_, h.started⟩
  obtain ⟨earlier, hearlier, hid⟩ := hsubsides.running round hround
  rw [← hid]
  exact h.running earlier hearlier

theorem Follows.ran (h : Follows session outcomes) {outcome : Option SearchOutcome}
    (hran : Ran session after outcome) : Follows after (outcomes ++ outcome.toList) := by
  cases hran with
  | refused hsubsides => simpa using h.subsides hsubsides
  | empty hsearched hround =>
    constructor
    · rw [hsearched, h.searched]
      simp [SearchOutcome.isSent]
    · rw [hround]
      nofun
    · exact List.forall_mem_append.2 ⟨h.started, List.forall_mem_singleton.2 fun _ => rfl⟩
  | sent round requests hsearched hround =>
    constructor
    · rw [hsearched]
      simp [SearchOutcome.isSent]
    · intro running hrunning
      rw [hround] at hrunning
      cases hrunning
      exact ⟨requests, List.getLast?_concat⟩
    · exact List.forall_mem_append.2 ⟨h.started, List.forall_mem_singleton.2 nofun⟩

theorem follows_clearResults (session : Session) : Follows session.clearResults [] := by
  refine ⟨rfl, fun round hround => ?_, nofun⟩
  have hover : session.clearResults.round = none := round_cancel session
  rw [hover] at hround
  cases hround

/-! ### Reading the state -/

theorem state_eq_searching_iff : session.state = .searching ↔ session.round.isSome = true := by
  unfold state
  split
  · simp_all
  · split <;> simp_all

theorem Follows.settled_iff (h : Follows session outcomes) :
    session.state = .settled ↔
      session.round = none ∧ ∃ outcome ∈ outcomes, outcome.isSent = true := by
  rw [← List.any_eq_true, ← h.searched]
  unfold state
  cases session.round <;> cases session.searched <;> simp

theorem Follows.idle_iff (h : Follows session outcomes) :
    session.state = .idle ↔
      session.round = none ∧ ∀ outcome ∈ outcomes, outcome = .nothingToRun := by
  have hnone : (∀ outcome ∈ outcomes, outcome = .nothingToRun) ↔
      outcomes.any SearchOutcome.isSent = false := by
    rw [List.any_eq_false]
    constructor
    · intro hall outcome hmem
      rw [hall outcome hmem]
      exact Bool.false_ne_true
    · exact fun hall outcome hmem => h.started outcome hmem (by simpa using hall outcome hmem)
  rw [hnone, ← h.searched]
  unfold state
  cases session.round <;> cases session.searched <;> simp

/-- Unless the last search found nothing to run, a search has sent a round just if the last
one has. -/
theorem Follows.exists_isSent_iff (h : Follows session outcomes)
    (hlast : outcomes.getLast? ≠ some .nothingToRun) :
    (∃ outcome ∈ outcomes, outcome.isSent = true) ↔
      ∃ round requests, outcomes.getLast? = some (.dispatched round requests) := by
  constructor
  · rintro ⟨outcome, hmem, -⟩
    have hlast' := List.getLast?_eq_some_getLast (List.ne_nil_of_mem hmem)
    rw [hlast'] at hlast ⊢
    have hstarted := h.started _ (List.getLast_mem (List.ne_nil_of_mem hmem))
    cases hsent : (outcomes.getLast (List.ne_nil_of_mem hmem)) with
    | dispatched round requests => exact ⟨round, requests, rfl⟩
    | _ =>
      rw [hsent] at hstarted hlast
      exact absurd (congrArg some (hstarted rfl)) hlast
  · rintro ⟨round, requests, hsent⟩
    exact ⟨_, List.mem_of_getLast? hsent, rfl⟩

end Session

namespace Traffic

variable {traffic : Traffic} {earlier : List SearchOutcome}

theorem follows_act (h : traffic.session.Follows earlier) (action : Action) :
    (traffic.act action).session.Follows (noted traffic.session earlier action) := by
  cases action with
  | answer call reply =>
    obtain hsession | ⟨arrival, hsession⟩ := session_answer traffic call reply <;>
      rw [act, hsession]
    · exact h
    · exact h.subsides (.of_eq rfl rfl)
  | operate operation =>
    cases operation with
    | clearResults => exact Session.follows_clearResults traffic.session
    | _ => exact h.ran (Operation.ran_run (by simp))

theorem follows_run (h : traffic.session.Follows earlier) (actions : List Action) :
    (traffic.run actions).session.Follows (traffic.outcomes earlier actions) := by
  induction actions generalizing traffic earlier with
  | nil => exact h
  | cons action actions ih => exact ih (follows_act h action)

/-- What the state of a session tells after any run.  A round that is running is the one that
the last search sent.  Without one, the session is settled if a search has sent a round
since results were last cleared, and idle if none has.  That is what the last search has
done, unless it found nothing to run: then the session is idle just if no search before it
has sent a round either. -/
theorem state_follows_searches (query : Query) (surroundings : Surroundings)
    (actions : List Action) :
    let start := Traffic.create (.create query surroundings)
    let session := (start.run actions).session
    let found := start.outcomes [] actions
    (session.state = .searching ↔ session.round.isSome = true) ∧
    (∀ round, session.round = some round →
      ∃ requests, found.getLast? = some (.dispatched round.id requests)) ∧
    (session.state = .settled ↔
      session.round = none ∧ ∃ outcome ∈ found, outcome.isSent = true) ∧
    (session.state = .idle ↔
      session.round = none ∧ ∀ outcome ∈ found, outcome = .nothingToRun) ∧
    (found.getLast? ≠ some .nothingToRun →
      (session.state = .settled ↔ session.round = none ∧
        ∃ round requests, found.getLast? = some (.dispatched round requests))) ∧
    ∀ operation : Operation, operation.outcome? session = some .nothingToRun →
      ((operation.run session).1.state = .idle ↔ ∀ outcome ∈ found, outcome = .nothingToRun) := by
  intro start session found
  have hcreated : start.session.Follows [] := ⟨rfl, nofun, nofun⟩
  have hfollows : session.Follows found := follows_run hcreated actions
  refine ⟨Session.state_eq_searching_iff, hfollows.running, hfollows.settled_iff,
    hfollows.idle_iff, fun hlast => ?_, fun operation hempty => ?_⟩
  · rw [hfollows.settled_iff, hfollows.exists_isSent_iff hlast]
  · have hclears : operation ≠ .clearResults := by
      rintro rfl
      cases hempty
    have hran := @Operation.ran_run session operation hclears
    rw [hempty] at hran
    have hover : (operation.run session).1.round = none := by
      cases hran with
      | empty _ hround => exact hround
    rw [(hfollows.ran hran).idle_iff, and_iff_right hover, Option.toList_some,
      List.forall_mem_append, List.forall_mem_singleton, and_iff_left rfl]

/-- A search of the local catalog that has settled. -/
def settledSearch : List Action :=
  [.operate (.start {}), .answer 0 (.ok ⟨[], [⟨"home", some 0, some 0, none, none, []⟩]⟩),
    .operate .poll]

/-- A session with a local catalog and no other sources. -/
def homeOnly : Session :=
  .create (.create "query" "Search") ⟨.create "home" false, 10, 1000, none⟩

theorem settled_search_is_told :
    let start := Traffic.create homeOnly
    let session := (start.run settledSearch).session
    (start.outcomes [] settledSearch).getLast? ≠ some .nothingToRun ∧ session.round = none ∧
      session.state = .settled := by
  intro start session
  have hlast : (start.outcomes [] settledSearch).getLast? ≠ some .nothingToRun := by
    decide +kernel
  have hover : session.round = none := by decide +kernel
  have hsent : ∃ round requests, (start.outcomes [] settledSearch).getLast? =
      some (.dispatched round requests) := by
    refine ⟨1, ((Operation.start {}).run homeOnly).2, ?_⟩
    decide +kernel
  obtain ⟨-, -, -, -, hsettled, -⟩ := state_follows_searches homeOnly.query homeOnly.surroundings
    settledSearch
  exact ⟨hlast, hover, (hsettled hlast).2 ⟨hover, hsent⟩⟩

/-- A search that finds nothing to run leaves the session settled where an earlier one has
sent a round. -/
theorem empty_search_stays_settled :
    let start := Traffic.create homeOnly
    let actions := settledSearch ++ [.operate (.setFederation .selected)]
    let session := (start.run actions).session
    (Operation.start {}).outcome? session = some .nothingToRun ∧
      (start.outcomes [] (actions ++ [.operate (.start {})])).getLast? = some .nothingToRun ∧
      ((Operation.start {}).run session).1.round = none ∧
      ((Operation.start {}).run session).1.state = .settled := by
  decide +kernel

end Traffic

end CatalogSearch
