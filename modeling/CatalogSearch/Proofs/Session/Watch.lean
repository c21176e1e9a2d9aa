import CatalogSearch.Proofs.Session.Accounting
import CatalogSearch.Proofs.Session.Board

/-!
# The board over a whole run

The board waits for a source only as long as some request of the running round asks
it and has had no reply applied.  So nothing is waited for once no round runs, and
when a round has settled the board tells of each of its sources whether it succeeded.
-/

namespace CatalogSearch

/-- Whether an operation may put a new board in the place of the old one. -/
def Operation.renewsBoard : Operation → Bool
  | start _ | startFromFirstPage _ | startIfOutdated | nextPage | previousPage
  | startLocal | widen _ _ | clearResults => true
  | _ => false

/-- Whether an action may put a new board in the place of the old one. -/
def Action.renewsBoard : Action → Bool
  | operate operation => operation.renewsBoard
  | answer _ _ => false

/-- Statuses that a search may be seeded with: of different sources, and none pending. -/
def Seedable (seeds : List Status) : Prop :=
  StatusBoard.Distinct seeds ∧ ∀ status ∈ seeds, status.pending = false

theorem seedable_nil : Seedable [] := ⟨List.nodup_nil, nofun⟩

theorem nodup_eraseDups (ids : List String) : ids.eraseDups.Nodup := by
  induction hlength : ids.length using Nat.strong_induction_on generalizing ids with
  | _ length ih =>
    cases ids with
    | nil => simp
    | cons id ids =>
      subst hlength
      rw [List.eraseDups_cons, List.nodup_cons]
      constructor
      · simp
      · exact ih _ (Nat.lt_succ_of_le (List.length_filter_le _ _)) _ rfl

namespace Traffic

/-- A request of the running round asks a source and had no reply applied. -/
def Awaits (traffic : Traffic) (id : String) : Prop :=
  ∃ round call request, traffic.session.round = some round ∧
    traffic.sent[call]? = some request ∧ request.round = round.id ∧
    call ∉ traffic.applied ∧ id ∈ request.sources

/-- The board waits for what it is to wait for, and knows all else. -/
structure Watched (traffic : Traffic) : Prop where
  distinct : traffic.session.statuses.Distinct
  awaited : ∀ id, traffic.session.statuses.Waits id → traffic.Awaits id
  asked : ∀ round, traffic.session.round = some round →
    ∀ request ∈ traffic.sent, request.round = round.id → ∀ id ∈ request.sources,
      traffic.session.statuses.Waits id ∨ traffic.session.statuses.Judges id

namespace Watched

variable {traffic next : Traffic}

theorem create (query : Query) (surroundings : Surroundings) :
    Watched (Traffic.create (Session.create query surroundings)) := by
  constructor
  · exact List.nodup_nil
  · rintro id ⟨status, hfind, -⟩
    cases hfind
  · intro round hround
    cases hround

/-- Without a running round nothing is waited for. -/
theorem not_waits (h : Watched traffic) (hround : traffic.session.round = none) (id : String) :
    ¬traffic.session.statuses.Waits id := by
  intro hwaits
  obtain ⟨round, -, -, hrunning, -⟩ := h.awaited id hwaits
  rw [hround] at hrunning
  cases hrunning

/-- The board that a round left can seed a search. -/
theorem seedable (h : Watched traffic) (hround : traffic.session.round = none) :
    Seedable traffic.session.statuses := by
  constructor
  · exact h.distinct
  · intro status hstatus
    by_contra hpending
    rw [Bool.not_eq_false] at hpending
    exact h.not_waits hround status.id (StatusBoard.waits_of_mem h.distinct hstatus hpending)

theorem seedable_of_cases (h : Watched traffic) {seeds : List Status}
    (hseeds : Seedable seeds ∨
      traffic.session.round = none ∧ seeds = traffic.session.statuses) : Seedable seeds := by
  obtain hseeds | ⟨hround, rfl⟩ := hseeds
  · exact hseeds
  · exact h.seedable hround

/-- A board on which nothing is waited for, while no round runs. -/
theorem of_idle (hdistinct : traffic.session.statuses.Distinct)
    (hwaits : ∀ id, ¬traffic.session.statuses.Waits id)
    (hround : traffic.session.round = none) : Watched traffic := by
  constructor
  · exact hdistinct
  · intro id hid
    exact absurd hid (hwaits id)
  · intro round hrunning
    rw [hround] at hrunning
    cases hrunning

theorem apply (h : Watched traffic) (hc : Coherent traffic) {entry : Nat × Arrival}
    {rest : List (Nat × Arrival)} (hqueue : traffic.queue = entry :: rest)
    (hcurrent : isCurrent traffic.session entry.2 = true) :
    Watched
      { traffic with
        session := (traffic.session.apply entry.2).withInbox (rest.map Prod.snd)
        queue := rest
        applied := traffic.applied ++ [entry.1] } := by
  obtain ⟨running, hround, hid⟩ := Session.isCurrent_iff.1 hcurrent
  obtain ⟨hcall, -, -⟩ := hc.head_of_queue hqueue
  obtain ⟨ids, hsources, hupdates⟩ :=
    StatusBoard.updates_boardAfter traffic.session.statuses entry.2
  have hstatuses : (traffic.session.apply entry.2).statuses =
      Session.boardAfter traffic.session.statuses entry.2 := Session.statuses_apply ..
  rw [← hstatuses] at hupdates
  have hround' := Session.round_apply hround entry.2
  constructor
  · exact hupdates.distinct h.distinct
  · intro id hwaits
    obtain ⟨hnot, hbefore⟩ := hupdates.waits hwaits
    obtain ⟨round, call, request, hrunning, hrequest, hof, happlied, hasks⟩ := h.awaited id hbefore
    rw [hround, Option.some.injEq] at hrunning
    subst hrunning
    have hleft : call ∉ traffic.applied ++ [entry.1] := by
      rw [List.mem_append, not_or, List.mem_singleton]
      constructor
      · exact happlied
      · rintro rfl
        rw [hcall, Option.some.injEq] at hrequest
        subst hrequest
        exact hnot (hsources hasks)
    have hmore : ¬running.outstanding ≤ 1 := by
      intro hlast
      have hof' : call ∈ callsOf traffic.sent running.id :=
        mem_callsOf.2 (isOf_eq_true_iff.2 ⟨request, hrequest, hof⟩)
      exact hleft (hc.applied_of_last hqueue hround hid hlast call hof')
    rw [if_neg hmore] at hround'
    exact ⟨_, call, request, hround', hrequest, hof, hleft, hasks⟩
  · intro round hrunning request hrequest hof id hasks
    obtain ⟨-, rfl⟩ := Session.of_round_apply hround hrunning
    apply hupdates.watched
    exact h.asked running hround request hrequest hof id hasks

theorem quiet (h : Watched traffic) {after : Session}
    (hround : after.round = traffic.session.round)
    (hstatuses : after.statuses = traffic.session.statuses) :
    Watched { traffic with session := after } := by
  constructor
  · exact hstatuses ▸ h.distinct
  · intro id hwaits
    obtain ⟨round, call, request, hrunning, hrest⟩ := h.awaited id (hstatuses ▸ hwaits)
    exact ⟨round, call, request, hround.trans hrunning, hrest⟩
  · intro round hrunning request hrequest hid id hasks
    change after.statuses.Waits id ∨ after.statuses.Judges id
    rw [hstatuses]
    exact h.asked round (hround.symm.trans hrunning) request hrequest hid id hasks

theorem giveUp (h : Watched traffic) {after : Session} {seeds : List Status}
    (hseeds : Seedable seeds) (hround : after.round = none)
    (hstatuses : after.statuses = traffic.session.statuses.finish ∨
      after.statuses = .start [] seeds) :
    Watched { traffic with session := after, queue := [] } := by
  obtain ⟨hdistinct, hpending⟩ := hseeds
  obtain hstatuses | hstatuses := hstatuses
  · apply of_idle _ _ hround
    · exact hstatuses ▸ StatusBoard.distinct_finish h.distinct
    · intro id hwaits
      exact StatusBoard.not_waits_finish _ id (hstatuses ▸ hwaits)
  · apply of_idle _ _ hround
    · exact hstatuses ▸ StatusBoard.distinct_start List.nodup_nil hdistinct
    · intro id hwaits
      cases StatusBoard.mem_of_waits_start hpending (hstatuses ▸ hwaits)

/-- A round that is sent is waited for at all the sources that it asks. -/
theorem send (hc : Coherent traffic) {after : Session} {requests : List Request}
    {seeds : List Status} (hseeds : Seedable seeds)
    (hround : after.round = some ⟨traffic.session.rounds + 1, requests.length⟩)
    (hstatuses : after.statuses = .start (Session.askedSources requests) seeds)
    (hof : ∀ request ∈ requests, request.round = traffic.session.rounds + 1) :
    Watched { traffic with session := after, sent := traffic.sent ++ requests, queue := [] } := by
  obtain ⟨hdistinct, hpending⟩ := hseeds
  have hnodup := nodup_eraseDups (requests.flatMap Request.sources)
  constructor
  · exact hstatuses ▸ StatusBoard.distinct_start hnodup hdistinct
  · intro id hwaits
    have hmem := StatusBoard.mem_of_waits_start hpending (hstatuses ▸ hwaits)
    obtain ⟨request, hrequest, hasks⟩ := Session.mem_askedSources.1 hmem
    obtain ⟨index, hindex⟩ := List.mem_iff_getElem?.1 hrequest
    have hcall : (traffic.sent ++ requests)[traffic.sent.length + index]? = some request := by
      rw [List.getElem?_append_right (Nat.le_add_right _ _), Nat.add_sub_cancel_left]
      exact hindex
    have happlied : traffic.sent.length + index ∉ traffic.applied := by
      intro hmem
      exact Nat.not_lt.2 (Nat.le_add_right _ _) (hc.applied_lt hmem)
    exact ⟨_, _, request, hround, hcall, hof request hrequest, happlied, hasks⟩
  · intro round hrunning request hrequest hid id hasks
    change after.round = some round at hrunning
    rw [hround, Option.some.injEq] at hrunning
    subst hrunning
    obtain hold | hnew := List.mem_append.1 hrequest
    · have hle := (hc.sent_round request hold).2
      rw [hid] at hle
      exact absurd hle (Nat.not_succ_le_self _)
    · left
      change after.statuses.Waits id
      rw [hstatuses]
      exact StatusBoard.waits_start hnodup hdistinct
        (Session.mem_askedSources.2 ⟨request, hnew, hasks⟩)

theorem move (h : Watched traffic) (hc : Coherent traffic)
    (hmove : Move Seedable traffic next) : Watched next := by
  cases hmove with
  | quiet after events hround hrounds hinbox hstatuses => exact h.quiet hround hstatuses
  | ended after events seeds hseeds hround hrounds hinbox hstatuses =>
    exact h.giveUp (h.seedable_of_cases hseeds) hround hstatuses
  | sent after requests seeds hseeds hrequests hround hrounds hinbox hstatuses hlog hof =>
    exact send hc (h.seedable_of_cases hseeds) hround hstatuses hof
  | answered => exact ⟨h.distinct, h.awaited, h.asked⟩
  | dropped => exact ⟨h.distinct, h.awaited, h.asked⟩
  | applied entry rest hqueue hcurrent => exact h.apply hc hqueue hcurrent

theorem moves (h : Watched traffic) (hc : Coherent traffic)
    (hmoves : Moves Seedable traffic next) : Watched next := by
  induction hmoves with
  | refl => exact h
  | tail hearlier hmove ih => exact ih.move (hc.moves hearlier) hmove

theorem run (h : Watched traffic) (hc : Coherent traffic) (actions : List Action)
    (hseeds : ∀ operation, .operate operation ∈ actions → Seedable operation.callerSeeds) :
    Watched (traffic.run actions) := by
  induction actions generalizing traffic with
  | nil => exact h
  | cons action actions ih =>
    have hmoves : Moves Seedable traffic (traffic.act action) := by
      apply moves_act hc.inStep seedable_nil action
      rintro operation rfl
      exact hseeds operation List.mem_cons_self
    apply ih (h.moves hc hmoves) (hc.act action)
    intro operation hoperation
    exact hseeds operation (List.mem_cons_of_mem _ hoperation)

/-! ## When a round settles -/

/-- The last reply of a round leaves none of its sources unjudged. -/
theorem judges_of_last (h : Watched traffic) (hc : Coherent traffic) {entry : Nat × Arrival}
    {rest : List (Nat × Arrival)} (hqueue : traffic.queue = entry :: rest) {running : Round}
    (hround : traffic.session.round = some running) (hid : entry.2.round = running.id)
    (hlast : running.outstanding ≤ 1) {request : Request} (hrequest : request ∈ traffic.sent)
    (hof : request.round = running.id) {id : String} (hasks : id ∈ request.sources) :
    (traffic.session.apply entry.2).statuses.Judges id := by
  have hcurrent : isCurrent traffic.session entry.2 = true :=
    Session.isCurrent_iff.2 ⟨running, hround, hid⟩
  have hover : (traffic.session.apply entry.2).round = none :=
    Session.round_apply_of_last hround hlast entry.2
  obtain ⟨ids, -, hupdates⟩ :=
    StatusBoard.updates_boardAfter traffic.session.statuses entry.2
  rw [← Session.statuses_apply] at hupdates
  obtain hwaits | hjudges :=
    hupdates.watched (h.asked running hround request hrequest hof id hasks)
  · exact absurd hwaits ((h.apply hc hqueue hcurrent).not_waits hover id)
  · exact hjudges

/-- A round that settles while replies are pulled leaves none of its sources unjudged. -/
theorem judges_of_pulled {session after : Session} {queue rest : List (Nat × Arrival)}
    {calls : List Nat} (hpulled : Session.Pulled session queue after rest calls)
    {sent : List Request} {answered applied : List Nat}
    (h : Watched (ofQueue session sent answered queue applied))
    (hc : Coherent (ofQueue session sent answered queue applied))
    {round : Nat} (htold : told session (.settled round) < told after (.settled round)) :
    after.round = none ∧ ∀ request ∈ sent, request.round = round →
      ∀ id ∈ request.sources, after.statuses.Judges id := by
  induction hpulled generalizing applied with
  | stop session queue => exact absurd htold (Nat.lt_irrefl _)
  | @drop session after entry queue rest calls hcurrent _ ih =>
    have hmove : Move Seedable _ _ := move_of_stale hcurrent sent answered queue applied
    exact ih (h.move hc hmove) (hc.move hmove) htold
  | @apply session after entry queue rest calls hcurrent hrest ih =>
    obtain ⟨running, hround, hid⟩ := Session.isCurrent_iff.1 hcurrent
    have happly := told_apply hround entry.2 (Eq.refl (Event.settled round).isEnd)
    by_cases hlast : running.outstanding ≤ 1
    · have hover : (session.apply entry.2).round = none :=
        Session.round_apply_of_last hround hlast entry.2
      obtain rfl := hrest.eq_of_over hover
      have hround' : round = running.id := by
        by_contra hne
        have hother : Event.settled round ≠ .settled running.id := fun heq =>
          hne (Event.settled.inj heq)
        rw [if_pos hlast, hid, List.count_eq_zero.2 (by simpa using hother), Nat.add_zero] at happly
        exact absurd htold (happly ▸ Nat.lt_irrefl _)
      constructor
      · exact hover
      · intro request hrequest hof id hasks
        subst hround'
        have hjudges := h.judges_of_last hc rfl hround hid hlast hrequest hof hasks
        change ((session.withInbox _).apply entry.2).statuses.Judges id at hjudges
        rwa [Session.withInbox_apply] at hjudges
    · have hmove : Move Seedable _ _ := move_of_current hcurrent sent answered queue applied
      rw [if_neg hlast, List.count_nil, Nat.add_zero] at happly
      exact ih (h.move hc hmove) (hc.move hmove) (happly ▸ htold)

/-- A round settles only when replies are pulled, and leaves none of its sources
unjudged. -/
theorem judges_of_settled (h : Watched traffic) (hc : Coherent traffic) (action : Action)
    {round : Nat}
    (htold : told traffic.session (.settled round) <
      told (traffic.act action).session (.settled round)) :
    (traffic.act action).session.round = none ∧
      ∀ request ∈ (traffic.act action).sent, request.round = round →
        ∀ id ∈ request.sources, (traffic.act action).session.statuses.Judges id := by
  cases action with
  | answer call reply =>
    have hlog : (traffic.answer call reply).session.log = traffic.session.log := by
      unfold answer
      split
      · rfl
      · split <;> rfl
    rw [act, told, told, hlog] at htold
    exact absurd htold (Nat.lt_irrefl _)
  | operate operation =>
    cases hpulls : operation.pulls with
    | false =>
      have hsame := told_settled_run traffic.session hpulls round
      exact absurd htold (hsame.symm ▸ Nat.lt_irrefl _)
    | true =>
      obtain ⟨front, rest, after, hpull, happlies, hoperate⟩ := operate_of_pulls hc.inStep hpulls
      have hself := eq_ofQueue hc.inStep
      rw [act, hoperate] at htold ⊢
      exact judges_of_pulled hpull.pulled (hself ▸ h) (hself ▸ hc) htold

/-- What is judged stays judged until the board is renewed. -/
theorem judges_of_act (hround : traffic.session.round = none) {action : Action}
    (haction : action.renewsBoard = false) :
    (traffic.act action).session.round = none ∧
      ∀ id, traffic.session.statuses.Judges id →
        (traffic.act action).session.statuses.Judges id := by
  cases action with
  | answer call reply =>
    simp only [act, answer]
    split
    · exact ⟨hround, fun _ => id⟩
    · split <;> exact ⟨hround, fun _ => id⟩
  | operate operation =>
    change (operation.run traffic.session).1.round = none ∧ ∀ id, _ →
      (operation.run traffic.session).1.statuses.Judges id
    cases operation with
    | cancel =>
      constructor
      · exact Session.round_cancel traffic.session
      · intro id hid
        rw [Operation.run, Session.statuses_cancel]
        exact StatusBoard.judges_finish hid
    | nextUpdate =>
      have hnone : traffic.session.nextUpdate? = none := by
        rw [Session.nextUpdate?, hround]
        rfl
      rw [Operation.run, hnone]
      exact ⟨hround, fun _ => id⟩
    | poll =>
      rw [Operation.run, Session.poll, Session.applyAll_of_over _ hround]
      exact ⟨hround, fun _ => id⟩
    | mergeResults =>
      rw [Operation.run, Session.mergeResults]
      split <;> exact ⟨hround, fun _ => id⟩
    | setFilter | setSorts | setFederation | setSources | setSourcesFromRegistry
    | preferencesChanged | setPageSize | setHook | setAutoMerge =>
      exact ⟨hround, fun _ => id⟩
    | start | startFromFirstPage | startIfOutdated | nextPage | previousPage | startLocal
    | widen | clearResults => cases haction

theorem judges_of_run (hround : traffic.session.round = none) {later : List Action}
    (hlater : ∀ action ∈ later, action.renewsBoard = false) {id : String}
    (h : traffic.session.statuses.Judges id) :
    (traffic.run later).session.statuses.Judges id := by
  induction later generalizing traffic with
  | nil => exact h
  | cons action later ih =>
    obtain ⟨hround', hjudges⟩ := judges_of_act hround (hlater action List.mem_cons_self)
    apply ih hround'
    · intro other hother
      exact hlater other (List.mem_cons_of_mem _ hother)
    · exact hjudges id h

end Watched

/-- Whatever is done, hooked, answered and reported, as long as callers seed searches
with statuses of different sources that are not pending: no two statuses on the board
are of one source; a pending status is that of a source which some request of the
running round asks that has had no reply applied, so that nothing is pending once no
round runs; and when a round settles, the board tells of every source of its requests
whether it succeeded, until it is renewed. -/
theorem board_keeps_up (query : Query) (surroundings : Surroundings) (actions : List Action)
    (hseeds : ∀ operation, .operate operation ∈ actions → Seedable operation.callerSeeds) :
    let traffic := (Traffic.create (Session.create query surroundings)).run actions
    (traffic.session.statuses.map Status.id).Nodup ∧
    (∀ status ∈ traffic.session.statuses, status.pending = true →
      traffic.Awaits status.id) ∧
    (traffic.session.round = none →
      ∀ status ∈ traffic.session.statuses, status.pending = false) ∧
    ∀ action round later,
      told traffic.session (.settled round) <
        told (traffic.act action).session (.settled round) →
      (∀ other ∈ later, other.renewsBoard = false) →
      ∀ request ∈ (traffic.act action).sent, request.round = round →
        ∀ id ∈ request.sources,
          ∃ status, ((traffic.act action).run later).session.statuses.find? id = some status ∧
            status.successful.isSome = true := by
  intro traffic
  have hc : Coherent traffic := (Coherent.create query surroundings).run actions
  have h : Watched traffic :=
    (Watched.create query surroundings).run (Coherent.create query surroundings) actions hseeds
  have hawaits : ∀ status ∈ traffic.session.statuses, status.pending = true →
      traffic.Awaits status.id := by
    intro status hstatus hpending
    exact h.awaited status.id (StatusBoard.waits_of_mem h.distinct hstatus hpending)
  constructor
  · exact h.distinct
  constructor
  · exact hawaits
  constructor
  · intro hround
    exact (h.seedable hround).2
  · intro action round later htold hlater request hrequest hof id hasks
    obtain ⟨hround, hjudges⟩ := h.judges_of_settled hc action htold
    exact Watched.judges_of_run hround hlater (hjudges request hrequest hof id hasks)

/-- A round that fails in a search with a seeded status tells that its source failed. -/
theorem board_keeps_up_failed :
    let seed : Status := ⟨"other", false, some true, none, 0, none, []⟩
    let actions : List Action :=
      [.operate (.start { seedStatuses := [seed] }), .answer 0 (.error .timedOut)]
    let traffic := (Traffic.create (Session.create (.create "query" "Search")
      ⟨.create "home" false, 20, 1000, none⟩)).run actions
    (∀ operation, .operate operation ∈ actions → Seedable operation.callerSeeds) ∧
      told traffic.session (.settled 1) <
        told (traffic.act (.operate .poll)).session (.settled 1) ∧
      ∃ status, (traffic.act (.operate .poll)).session.statuses.find? "home" = some status ∧
        status.successful.isSome = true := by
  intro seed actions traffic
  have hseeds : ∀ operation, .operate operation ∈ actions →
      Seedable operation.callerSeeds := by
    intro operation hoperation
    simp only [actions, List.mem_cons, Action.operate.injEq, reduceCtorEq, List.not_mem_nil,
      or_false] at hoperation
    subst hoperation
    constructor
    · exact List.nodup_singleton _
    · intro status hstatus
      rw [List.mem_singleton.1 hstatus]
  have htold : told traffic.session (.settled 1) <
      told (traffic.act (.operate .poll)).session (.settled 1) := by decide +kernel
  have hasked : ∃ request ∈ (traffic.act (.operate .poll)).sent,
      request.round = 1 ∧ "home" ∈ request.sources := by decide +kernel
  obtain ⟨request, hrequest, hof, hasks⟩ := hasked
  obtain ⟨-, -, -, hjudged⟩ := board_keeps_up _ _ actions hseeds
  exact ⟨hseeds, htold, hjudged _ 1 [] htold nofun request hrequest hof "home" hasks⟩

end Traffic

end CatalogSearch
