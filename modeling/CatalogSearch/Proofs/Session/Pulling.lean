import CatalogSearch.Proofs.Session.Effects
import CatalogSearch.Proofs.Session.Traffic

/-!
# Pulling replies

The two operations that pull take a front part of the inbox: replies of the running
round are applied one after the other, others are dropped.  `Pulled` says what can
come of that, and `PullsOut` that it does not depend on what was dropped.
-/

namespace CatalogSearch

namespace Session

/-! ## One reply -/

/-- The session after a reply was taken in, before it is counted. -/
def record (session : Session) (arrival : Arrival) : Session :=
  match arrival.reply with
  | .ok answer => session.applyAnswer arrival.request answer
  | .error failure => session.applyFailure arrival.request failure

/-- The board after a reply was taken in. -/
def boardAfter (board : StatusBoard) (arrival : Arrival) : StatusBoard :=
  match arrival.reply with
  | .ok answer => (answeredBoard board arrival.request.sources answer.reports).1
  | .error _ => (board.fail arrival.request.sources).1

theorem apply_eq (session : Session) (arrival : Arrival) :
    session.apply arrival = (session.record arrival).countDown arrival.round := rfl

theorem addItems_eq (session : Session) (asked : String) (items : List Answer.Item) :
    session.addItems asked items =
      { session with
        view := session.view.map fun view => viewWith view asked items
        log := ((session.view.map fun view => Event.resultsChanged
          (viewWith view asked items).records.length
          (viewWith view asked items).queue.length).toList).foldl EventLog.push session.log } := by
  obtain ⟨query, surroundings, tracker, statuses, view⟩ := session
  cases view <;> rfl

/-- What is told of a failure besides the statuses that it changes. -/
def failureEvents : Failure → List Event
  | .unauthorized source url => [.authenticationRequired source url]
  | _ => []

/-- What is told while a reply is taken in. -/
def recordEvents (session : Session) (arrival : Arrival) : List Event :=
  match arrival.reply with
  | .ok answer =>
    (answeredBoard session.statuses arrival.request.sources answer.reports).2.map
        .statusChanged ++
      (session.view.map fun view => Event.resultsChanged
        (viewWith view (arrival.request.sources.head?.getD "") answer.items).records.length
        (viewWith view (arrival.request.sources.head?.getD "") answer.items).queue.length).toList
  | .error failure =>
    failureEvents failure ++ (session.statuses.fail arrival.request.sources).2.map .statusChanged

/-- A reply changes the board, the view and what is told, and nothing else. -/
theorem record_eq (session : Session) (arrival : Arrival) :
    session.record arrival =
      { session with
        statuses := boardAfter session.statuses arrival
        view :=
          match arrival.reply with
          | .ok answer => session.view.map fun view =>
            viewWith view (arrival.request.sources.head?.getD "") answer.items
          | .error _ => session.view
        log := (session.recordEvents arrival).foldl EventLog.push session.log } := by
  obtain ⟨request, failure | answer⟩ := arrival
  · cases failure <;>
      simp [record, applyFailure, setStatuses, emitAll_eq, boardAfter, recordEvents,
        failureEvents, emit]
  · simp [record, applyAnswer, setStatuses, emitAll_eq, addItems_eq, boardAfter, recordEvents]

theorem round?_of_mem_recordEvents {session : Session} {arrival : Arrival} {event : Event}
    (h : event ∈ session.recordEvents arrival) : event.round? = none := by
  obtain ⟨request, failure | answer⟩ := arrival
  · simp only [recordEvents, List.mem_append, List.mem_map] at h
    obtain h | ⟨status, -, rfl⟩ := h
    · cases failure <;> simp [failureEvents] at h
      subst h
      rfl
    · rfl
  · simp only [recordEvents, List.mem_append, List.mem_map, Option.mem_toList,
      Option.map_eq_some_iff] at h
    obtain ⟨status, -, rfl⟩ | ⟨view, -, rfl⟩ := h <;> rfl

theorem withInbox_record (session : Session) (arrival : Arrival) (inbox : List Arrival) :
    (session.withInbox inbox).record arrival = (session.record arrival).withInbox inbox := by
  rw [record_eq, record_eq]
  rfl

theorem withInbox_countDown (session : Session) (id : RoundId) (inbox : List Arrival) :
    (session.withInbox inbox).countDown id = (session.countDown id).withInbox inbox := by
  obtain ⟨query, surroundings, tracker, statuses, view, _ | round⟩ := session
  · rfl
  · simp only [countDown, withInbox]
    split <;> rfl

/-- A reply is applied in the same way whatever else waits in the inbox. -/
theorem withInbox_apply (session : Session) (arrival : Arrival) (inbox : List Arrival) :
    (session.withInbox inbox).apply arrival = (session.apply arrival).withInbox inbox := by
  rw [apply_eq, apply_eq, withInbox_record, withInbox_countDown]

theorem countDown_of_last {session : Session} {round : Round} (h : session.round = some round)
    (hlast : round.outstanding ≤ 1) (id : RoundId) :
    session.countDown id = { session with round := none }.emit (.settled id) := by
  have hzero : round.outstanding - 1 = 0 := by omega
  simp only [countDown, h, hzero, if_true]

theorem countDown_of_more {session : Session} {round : Round} (h : session.round = some round)
    (hmore : 1 < round.outstanding) (id : RoundId) :
    session.countDown id =
      { session with round := some ⟨round.id, round.outstanding - 1⟩ } := by
  have hpos : round.outstanding - 1 ≠ 0 := by omega
  simp only [countDown, h, hpos, if_false]

/-- Counting touches neither the board nor the number of rounds. -/
theorem countDown_frame (session : Session) (id : RoundId) :
    (session.countDown id).rounds = session.rounds ∧
      (session.countDown id).statuses = session.statuses := by
  unfold countDown
  cases session.round with
  | none => exact ⟨rfl, rfl⟩
  | some round =>
    simp only
    split <;> exact ⟨rfl, rfl⟩

@[simp]
theorem rounds_apply (session : Session) (arrival : Arrival) :
    (session.apply arrival).rounds = session.rounds := by
  rw [apply_eq, (countDown_frame _ _).1, record_eq]

@[simp]
theorem statuses_apply (session : Session) (arrival : Arrival) :
    (session.apply arrival).statuses = boardAfter session.statuses arrival := by
  rw [apply_eq, (countDown_frame _ _).2, record_eq]

/-- A round keeps its id while replies to it are applied; it ends with the last one. -/
theorem round_apply {session : Session} {round : Round} (h : session.round = some round)
    (arrival : Arrival) :
    (session.apply arrival).round =
      if round.outstanding ≤ 1 then none else some ⟨round.id, round.outstanding - 1⟩ := by
  have hrecord : (session.record arrival).round = some round := by rw [record_eq]; exact h
  rw [apply_eq]
  split
  · rename_i hlast
    rw [countDown_of_last hrecord hlast]
    rfl
  · rename_i hmore
    rw [countDown_of_more hrecord (by omega)]

theorem round_apply_of_last {session : Session} {round : Round} (h : session.round = some round)
    (hlast : round.outstanding ≤ 1) (arrival : Arrival) : (session.apply arrival).round = none := by
  rw [round_apply h, if_pos hlast]

/-- A round goes on only if it waits for more than the reply that is applied. -/
theorem of_round_apply {session : Session} {round later : Round} {arrival : Arrival}
    (h : session.round = some round) (hlater : (session.apply arrival).round = some later) :
    1 < round.outstanding ∧ later = ⟨round.id, round.outstanding - 1⟩ := by
  rw [round_apply h] at hlater
  split at hlater
  · cases hlater
  · rename_i hmore
    exact ⟨Nat.lt_of_not_le hmore, (Option.some.inj hlater).symm⟩

/-- The last reply of a round settles it, after all that it changed was told. -/
theorem toList_log_apply {session : Session} {round : Round} (h : session.round = some round)
    (arrival : Arrival) :
    (session.apply arrival).log.toList =
      session.log.toList ++ session.recordEvents arrival ++
        if round.outstanding ≤ 1 then [.settled arrival.round] else [] := by
  have hrecord : (session.record arrival).round = some round := by rw [record_eq]; exact h
  have hlog : (session.record arrival).log.toList =
      session.log.toList ++ session.recordEvents arrival := by
    rw [record_eq]
    exact toList_foldl_push _ _
  rw [apply_eq, ← hlog]
  split
  · rename_i hlast
    rw [countDown_of_last hrecord hlast]
    exact EventLog.toList_push _ _
  · rename_i hmore
    rw [countDown_of_more hrecord (by omega), List.append_nil]

/-! ## A front part of the inbox -/

/-- Whether an arrival belongs to the running round. -/
theorem isCurrent_iff {session : Session} {arrival : Arrival} :
    Traffic.isCurrent session arrival = true ↔
      ∃ round, session.round = some round ∧ arrival.round = round.id := by
  unfold Traffic.isCurrent
  split <;> simp_all

/-- From a session and its numbered inbox to a session and what is left of the
inbox, by applying replies with the given numbers.  A reply is applied if it
belongs to the round that runs at that moment, and dropped if it does not. -/
inductive Pulled : Session → List (Nat × Arrival) → Session → List (Nat × Arrival) →
    List Nat → Prop
  | stop (session : Session) (queue : List (Nat × Arrival)) :
      Pulled session queue session queue []
  | drop {session after : Session} {entry : Nat × Arrival} {queue rest : List (Nat × Arrival)}
      {calls : List Nat} (h : Traffic.isCurrent session entry.2 = false)
      (hrest : Pulled session queue after rest calls) :
      Pulled session (entry :: queue) after rest calls
  | apply {session after : Session} {entry : Nat × Arrival} {queue rest : List (Nat × Arrival)}
      {calls : List Nat} (h : Traffic.isCurrent session entry.2 = true)
      (hrest : Pulled (session.apply entry.2) queue after rest calls) :
      Pulled session (entry :: queue) after rest (entry.1 :: calls)

/-- A way of pulling takes the front part of an inbox and comes to the same if
replies that are not current are left out of the inbox. -/
structure PullsOut (pull : List Arrival → Session) (session : Session)
    (queue front rest : List (Nat × Arrival)) (after : Session) : Prop where
  split : queue = front ++ rest
  pulled : Pulled session queue after rest
    ((front.filter fun entry => Traffic.isCurrent session entry.2).map Prod.fst)
  pull_eq : ∀ keep : Nat → Bool,
    (∀ entry ∈ front, Traffic.isCurrent session entry.2 = true → keep entry.1 = true) →
    pull ((queue.filter fun entry => keep entry.1).map Prod.snd) =
      after.withInbox ((rest.filter fun entry => keep entry.1).map Prod.snd)

/-! ### Polling -/

theorem applyAll_of_over (session : Session) (h : session.round = none)
    (arrivals : List Arrival) :
    session.applyAll arrivals = (session.withInbox arrivals, 0) := by
  cases arrivals with
  | nil => rfl
  | cons arrival rest => simp only [applyAll, h, withInbox]

theorem applyAll_of_current (session : Session) {arrival : Arrival}
    (h : Traffic.isCurrent session arrival = true) (rest : List Arrival) :
    (session.applyAll (arrival :: rest)).1 = ((session.apply arrival).applyAll rest).1 := by
  obtain ⟨round, hround, hid⟩ := isCurrent_iff.1 h
  simp only [applyAll, hround, hid, if_true]

theorem applyAll_of_stale (session : Session) {round : Round} {arrival : Arrival}
    (hround : session.round = some round)
    (h : Traffic.isCurrent session arrival = false) (rest : List Arrival) :
    session.applyAll (arrival :: rest) = session.applyAll rest := by
  have hid : arrival.round ≠ round.id := by
    intro hid
    rw [isCurrent_iff.2 ⟨round, hround, hid⟩] at h
    cases h
  simp only [applyAll, hround, hid, if_false]

theorem applyAll_withInbox (session : Session) (inbox arrivals : List Arrival) :
    ((session.withInbox inbox).applyAll arrivals).1 = (session.applyAll arrivals).1 := by
  induction arrivals generalizing session with
  | nil => rfl
  | cons arrival rest ih =>
    cases hround : session.round with
    | none => rw [applyAll_of_over _ hround, applyAll_of_over (session.withInbox inbox) hround]; rfl
    | some round =>
      cases h : Traffic.isCurrent session arrival with
      | true =>
        rw [applyAll_of_current _ h, applyAll_of_current (session.withInbox inbox) h,
          withInbox_apply]
        exact ih (session.apply arrival)
      | false =>
        rw [applyAll_of_stale _ hround h, applyAll_of_stale (session.withInbox inbox) hround h]
        exact ih session

/-- After a reply was applied, what is current is what was current before, unless
nothing is. -/
theorem isCurrent_apply {session : Session} {arrival : Arrival}
    (h : (session.apply arrival).round ≠ none) (other : Arrival) :
    Traffic.isCurrent (session.apply arrival) other = Traffic.isCurrent session other := by
  cases hround : session.round with
  | none =>
    have hrecord : (session.record arrival).round = none := by rw [record_eq]; exact hround
    rw [apply_eq, countDown, hrecord] at h
    exact absurd hrecord h
  | some round =>
    rw [round_apply hround] at h
    have hmore : ¬round.outstanding ≤ 1 := by
      intro hlast
      exact h (if_pos hlast)
    simp only [Traffic.isCurrent, round_apply hround, hround, hmore, if_false]

/-- Polling an inbox, for the session that comes of it. -/
def pollThrough (session : Session) (inbox : List Arrival) : Session :=
  (session.applyAll inbox).1

theorem pullsOut_of_over {session : Session} (h : session.round = none)
    (queue : List (Nat × Arrival)) :
    PullsOut session.pollThrough session queue [] queue session where
  split := rfl
  pulled := .stop session queue
  pull_eq _ _ := congrArg Prod.fst (applyAll_of_over session h _)

section

variable {session after : Session} {entry : Nat × Arrival}
  {queue front rest : List (Nat × Arrival)}

/-- A reply that is not current comes to nothing, whether it is kept or not. -/
theorem PullsOut.of_stale {round : Round}
    (hpull : PullsOut session.pollThrough session queue front rest after)
    (hround : session.round = some round)
    (h : Traffic.isCurrent session entry.2 = false) :
    PullsOut session.pollThrough session (entry :: queue) (entry :: front) rest after where
  split := congrArg (entry :: ·) hpull.split
  pulled := by
    rw [List.filter_cons_of_neg (by simp [h])]
    exact .drop h hpull.pulled
  pull_eq := by
    intro keep hkeep
    have hpull_eq := hpull.pull_eq keep fun other hother =>
      hkeep other (List.mem_cons_of_mem _ hother)
    cases hentry : keep entry.1 with
    | true =>
      rw [List.filter_cons_of_pos (by exact hentry), List.map_cons]
      exact (congrArg Prod.fst (applyAll_of_stale session hround h _)).trans hpull_eq
    | false =>
      rw [List.filter_cons_of_neg (by simp [hentry])]
      exact hpull_eq

/-- A reply that is current is applied, and so are those after it that still are. -/
theorem PullsOut.of_current
    (hpull : PullsOut (session.apply entry.2).pollThrough (session.apply entry.2) queue front rest
      after)
    (hover : (session.apply entry.2).round = none → front = [])
    (h : Traffic.isCurrent session entry.2 = true) :
    PullsOut session.pollThrough session (entry :: queue) (entry :: front) rest after := by
  have hfront : front.filter (fun entry => Traffic.isCurrent session entry.2) =
      front.filter fun other => Traffic.isCurrent (session.apply entry.2) other.2 := by
    by_cases hnone : (session.apply entry.2).round = none
    · rw [hover hnone]
      rfl
    · exact List.filter_congr fun other _ => (isCurrent_apply hnone other.2).symm
  constructor
  case split => exact congrArg (entry :: ·) hpull.split
  case pulled =>
    rw [List.filter_cons_of_pos (by exact h), List.map_cons, hfront]
    exact .apply h hpull.pulled
  case pull_eq =>
    intro keep hkeep
    have hentry : keep entry.1 = true := hkeep entry List.mem_cons_self h
    rw [List.filter_cons_of_pos (by exact hentry), List.map_cons, pollThrough,
      applyAll_of_current session h]
    apply hpull.pull_eq keep
    intro other hother hcurrent
    have hmem : other ∈ front.filter fun entry => Traffic.isCurrent session entry.2 := by
      rw [hfront]
      exact List.mem_filter.2 ⟨hother, hcurrent⟩
    exact hkeep other (List.mem_cons_of_mem _ hother) (List.mem_filter.1 hmem).2

end

/-- Polling takes out replies until none is left or the round is over. -/
theorem pullsOut_pollThrough (session : Session) (queue : List (Nat × Arrival)) :
    ∃ front rest after, PullsOut session.pollThrough session queue front rest after ∧
      (session.round = none → front = []) := by
  induction queue generalizing session with
  | nil => exact ⟨[], [], session, ⟨rfl, .stop session [], fun keep _ => rfl⟩, fun _ => rfl⟩
  | cons entry queue ih =>
    cases hround : session.round with
    | none => exact ⟨[], entry :: queue, session, pullsOut_of_over hround _, fun _ => rfl⟩
    | some round =>
      cases h : Traffic.isCurrent session entry.2 with
      | true =>
        obtain ⟨front, rest, after, hpull, hover⟩ := ih (session.apply entry.2)
        exact ⟨entry :: front, rest, after, hpull.of_current hover h, nofun⟩
      | false =>
        obtain ⟨front, rest, after, hpull, -⟩ := ih session
        exact ⟨entry :: front, rest, after, hpull.of_stale hround h, nofun⟩

/-- Once polled, a session has no running round or an empty inbox. -/
theorem applyAll_over_or_nil (session : Session) (arrivals : List Arrival) :
    (session.applyAll arrivals).1.round = none ∨ (session.applyAll arrivals).1.inbox = [] := by
  induction arrivals generalizing session with
  | nil => exact .inr rfl
  | cons arrival rest ih =>
    cases hround : session.round with
    | none =>
      rw [applyAll_of_over session hround]
      exact .inl hround
    | some round =>
      cases hcurrent : Traffic.isCurrent session arrival with
      | true =>
        rw [applyAll_of_current session hcurrent]
        exact ih _
      | false =>
        rw [applyAll_of_stale session hround hcurrent]
        exact ih _

/-! ### The next reply -/

/-- The session after the next reply was pulled out of an inbox, if it holds one. -/
def pullNext (session : Session) (inbox : List Arrival) : Session :=
  ((session.withInbox inbox).nextUpdate?).getD (session.withInbox inbox)

theorem takeArrival?_of_stale {round : RoundId} {stale : List Arrival}
    (h : ∀ arrival ∈ stale, arrival.round ≠ round) (inbox : List Arrival) :
    takeArrival? round (stale ++ inbox) = takeArrival? round inbox := by
  induction stale with
  | nil => rfl
  | cons arrival stale ih =>
    rw [List.cons_append, takeArrival?, if_neg (h arrival (by simp))]
    exact ih fun other hother => h other (by simp [hother])

theorem nextUpdate?_eq {session : Session} {round : Round} (h : session.round = some round) :
    session.nextUpdate? = (takeArrival? round.id session.inbox).map fun taken =>
      (session.withInbox taken.2).apply taken.1 := by
  obtain ⟨query, surroundings, tracker, statuses, view, _, inbox⟩ := session
  cases h
  simp only [nextUpdate?, withInbox, Option.bind_eq_bind, Option.bind_some]
  cases takeArrival? round.id inbox <;> rfl

theorem pullNext_of_stale {session : Session} {stale : List Arrival}
    (h : ∀ arrival ∈ stale, Traffic.isCurrent session arrival = false) :
    session.pullNext stale = session.withInbox stale := by
  have hnone : (session.withInbox stale).nextUpdate? = none := by
    cases hround : session.round with
    | none =>
      have hround' : (session.withInbox stale).round = none := hround
      simp only [nextUpdate?, hround']
      rfl
    | some round =>
      have hround' : (session.withInbox stale).round = some round := hround
      have htake : takeArrival? round.id stale = none := by
        have hstale : ∀ arrival ∈ stale, arrival.round ≠ round.id := by
          intro arrival harrival hid
          have := h arrival harrival
          rw [isCurrent_iff.2 ⟨round, hround, hid⟩] at this
          cases this
        simpa [takeArrival?] using takeArrival?_of_stale hstale []
      rw [nextUpdate?_eq hround']
      exact congrArg (Option.map _) htake
  rw [pullNext, hnone]
  rfl

theorem pullNext_of_current {session : Session} {stale rest : List Arrival} {arrival : Arrival}
    (hstale : ∀ other ∈ stale, Traffic.isCurrent session other = false)
    (h : Traffic.isCurrent session arrival = true) :
    session.pullNext (stale ++ arrival :: rest) = (session.apply arrival).withInbox rest := by
  obtain ⟨round, hround, hid⟩ := isCurrent_iff.1 h
  have hround' : (session.withInbox (stale ++ arrival :: rest)).round = some round := hround
  have htake : takeArrival? round.id (stale ++ arrival :: rest) = some (arrival, rest) := by
    have hother : ∀ other ∈ stale, other.round ≠ round.id := by
      intro other hother hid
      have := hstale other hother
      rw [isCurrent_iff.2 ⟨round, hround, hid⟩] at this
      cases this
    rw [takeArrival?_of_stale hother, takeArrival?, if_pos hid]
  have hnext : (session.withInbox (stale ++ arrival :: rest)).nextUpdate? =
      some ((session.withInbox rest).apply arrival) := by
    rw [nextUpdate?_eq hround']
    exact congrArg (Option.map _) htake
  rw [pullNext, hnext, withInbox_apply]
  rfl

theorem Pulled.drops {session after : Session} {stale queue rest : List (Nat × Arrival)}
    {calls : List Nat} (hstale : ∀ entry ∈ stale, Traffic.isCurrent session entry.2 = false)
    (h : Pulled session queue after rest calls) :
    Pulled session (stale ++ queue) after rest calls := by
  induction stale with
  | nil => exact h
  | cons entry stale ih =>
    exact .drop (hstale entry (by simp)) (ih fun other hother => hstale other (by simp [hother]))

/-- Once no round runs nothing changes any more. -/
theorem Pulled.eq_of_over {session after : Session} {queue rest : List (Nat × Arrival)}
    {calls : List Nat} (h : Pulled session queue after rest calls)
    (hover : session.round = none) : after = session := by
  induction h with
  | stop session queue => rfl
  | drop _ _ ih => exact ih hover
  | apply hcurrent _ _ =>
    obtain ⟨round, hround, -⟩ := isCurrent_iff.1 hcurrent
    rw [hover] at hround
    cases hround

theorem pullsOut_pullNext (session : Session) (queue : List (Nat × Arrival)) :
    ∃ front rest after, PullsOut session.pullNext session queue front rest after := by
  cases hfind : queue.find? (fun entry => Traffic.isCurrent session entry.2) with
  | none =>
    rw [List.find?_eq_none] at hfind
    refine ⟨[], queue, session, rfl, .stop session queue, fun keep _ => ?_⟩
    apply pullNext_of_stale
    intro arrival harrival
    obtain ⟨entry, hentry, rfl⟩ := List.mem_map.1 harrival
    simpa using hfind entry (List.mem_filter.1 hentry).1
  | some entry =>
    obtain ⟨h, stale, rest, hqueue, hstale⟩ := List.find?_eq_some_iff_append.1 hfind
    have hstale' : ∀ other ∈ stale, Traffic.isCurrent session other.2 = false := by
      simpa using hstale
    refine ⟨stale ++ [entry], rest, session.apply entry.2, ?_, ?_, fun keep hkeep => ?_⟩
    · simp [hqueue]
    · have hfilter : (stale ++ [entry]).filter (fun other => Traffic.isCurrent session other.2) =
          [entry] := by
        rw [List.filter_append, List.filter_eq_nil_iff.2 (by simpa using hstale')]
        simpa using h
      rw [hfilter, hqueue]
      exact Pulled.drops hstale' (.apply h (.stop _ _))
    · have hentry : keep entry.1 = true := hkeep entry (by simp) h
      rw [hqueue, List.filter_append, List.filter_cons_of_pos (by exact hentry),
        List.map_append, List.map_cons]
      apply pullNext_of_current _ h
      intro arrival harrival
      obtain ⟨other, hother, rfl⟩ := List.mem_map.1 harrival
      exact hstale' other (List.mem_filter.1 hother).1

end Session

/-! ## Pulling in a traffic -/

namespace Traffic

/-- An operation that pulls takes replies out of any inbox in the same way. -/
theorem exists_pullsOut (session : Session) {operation : Operation}
    (h : operation.pulls = true) (queue : List (Nat × Arrival)) :
    ∃ front rest after,
      Session.PullsOut (fun inbox => (operation.run (session.withInbox inbox)).1) session queue
        front rest after := by
  cases operation with
  | nextUpdate => exact Session.pullsOut_pullNext session queue
  | poll =>
    obtain ⟨front, rest, after, hpull, -⟩ := Session.pullsOut_pollThrough session queue
    refine ⟨front, rest, after, hpull.split, hpull.pulled, fun keep hkeep => ?_⟩
    rw [← hpull.pull_eq keep hkeep]
    exact Session.applyAll_withInbox session _ _
  | _ => cases h

/-- An operation that pulls leaves what is behind the replies that it takes out. -/
theorem run_of_pullsOut {session after : Session} {operation : Operation}
    {queue front rest : List (Nat × Arrival)}
    (h : Session.PullsOut (fun inbox => (operation.run (session.withInbox inbox)).1) session queue
      front rest after) (hqueue : session.inbox = queue.map Prod.snd) :
    (operation.run session).1 = after.withInbox (rest.map Prod.snd) := by
  have hinbox : session.withInbox (queue.map Prod.snd) = session := by
    rw [← hqueue]
    rfl
  have hall := h.pull_eq (fun _ => true) fun _ _ _ => rfl
  have htrue : ∀ entries : List (Nat × Arrival), entries.filter (fun _ => true) = entries :=
    fun entries => List.filter_eq_self.2 fun _ _ => rfl
  rwa [htrue, htrue, hinbox] at hall

end Traffic

end CatalogSearch
