import CatalogSearch.Proofs.Session.Ledger

/-!
# How rounds end

A round that was sent is running, settled or cancelled.  It is settled with the
reply to the last of its requests, and only then; it is cancelled if it was given
up before.  Either is told once, and never both.
-/

namespace CatalogSearch

/-- Whether an event is the end of a round. -/
def Event.isEnd : Event → Bool
  | settled _ | cancelled _ => true
  | _ => false

theorem Event.isEnd_of_round?_eq_none {event : Event} (h : event.round? = none) :
    event.isEnd = false := by
  cases event <;> first | rfl | cases h

namespace Traffic

/-- How often a session told of an event. -/
def told (session : Session) (event : Event) : Nat := session.log.toList.count event

/-- Beside ends of rounds nothing that is told counts as one. -/
theorem count_of_isEnd {events : List Event} (hevents : ∀ other ∈ events, other.isEnd = false)
    {event : Event} (hend : event.isEnd = true) : events.count event = 0 := by
  refine List.count_eq_zero.2 fun hmem => ?_
  rw [hevents event hmem] at hend
  cases hend

theorem told_of_log {session after : Session} {events : List Event}
    (hlog : after.log.toList = session.log.toList ++ events)
    (hevents : ∀ other ∈ events, other.isEnd = false) {event : Event}
    (hend : event.isEnd = true) : told after event = told session event := by
  rw [told, hlog, List.count_append, count_of_isEnd hevents hend, Nat.add_zero, told]

theorem told_of_farewell {session after : Session} {events : List Event}
    (hlog : after.log.toList = session.log.toList ++ session.farewell ++ events)
    (hevents : ∀ other ∈ events, other.isEnd = false) {event : Event}
    (hend : event.isEnd = true) :
    told after event = told session event + session.farewell.count event := by
  rw [told, hlog, List.count_append, List.count_append, count_of_isEnd hevents hend,
    Nat.add_zero, told]

/-- A round that is given up is told of as cancelled, and no other one. -/
theorem count_farewell_of_ne {session : Session} {event : Event}
    (h : ∀ running, session.round = some running → event ≠ .cancelled running.id) :
    session.farewell.count event = 0 := by
  unfold Session.farewell
  cases hround : session.round with
  | none => rfl
  | some running => exact List.count_eq_zero.2 (by simpa using h running hround)

/-- A reply that is applied can end its own round only. -/
theorem told_apply {session : Session} {running : Round}
    (hround : session.round = some running) (arrival : Arrival) {event : Event}
    (hend : event.isEnd = true) :
    told (session.apply arrival) event = told session event +
      (if running.outstanding ≤ 1 then [.settled arrival.round] else []).count event := by
  have hevents : ∀ other ∈ session.recordEvents arrival, other.isEnd = false :=
    fun other hother =>
      Event.isEnd_of_round?_eq_none (Session.round?_of_mem_recordEvents hother)
  rw [told, Session.toList_log_apply hround, List.count_append, List.count_append,
    count_of_isEnd hevents hend, Nat.add_zero, told]

/-- Giving up a round settles none. -/
theorem told_settled_of_farewell {session after : Session} {events : List Event}
    (hlog : after.log.toList = session.log.toList ++ session.farewell ++ events)
    (hevents : ∀ other ∈ events, other.isEnd = false) (round : Nat) :
    told after (.settled round) = told session (.settled round) := by
  have hnone : session.farewell.count (.settled round) = 0 :=
    count_farewell_of_ne fun _ _ heq => by cases heq
  rw [told_of_farewell hlog hevents rfl, hnone, Nat.add_zero]

/-- Only pulling settles a round. -/
theorem told_settled_run (session : Session) {operation : Operation}
    (h : operation.pulls = false) (round : Nat) :
    told (operation.run session).1 (.settled round) = told session (.settled round) := by
  have heffect := operation.effect_run session h
  generalize (operation.run session).2 = requests at heffect
  cases heffect with
  | quiet events _ _ _ _ hlog hevents =>
    exact told_of_log hlog (fun event hevent =>
      Event.isEnd_of_round?_eq_none (hevents event hevent)) rfl
  | ended events _ _ _ _ hlog hevents =>
    exact told_settled_of_farewell hlog (fun event hevent =>
      Event.isEnd_of_round?_eq_none (hevents event hevent)) round
  | sent _ _ _ _ _ _ hlog =>
    exact told_settled_of_farewell hlog (by simp [Event.isEnd]) round

/-- No end of a round was told. -/
def Unended (session : Session) (round : Nat) : Prop :=
  told session (.settled round) = 0 ∧ told session (.cancelled round) = 0

/-- All requests of a round were applied, and it was told once that it settled. -/
def Settled (traffic : Traffic) (round : Nat) : Prop :=
  told traffic.session (.settled round) = 1 ∧ told traffic.session (.cancelled round) = 0 ∧
    (appliedOf traffic.sent traffic.applied round).length =
      (callsOf traffic.sent round).length

/-- Not all requests of a round were applied, and it was told once that it was
cancelled. -/
def Cancelled (traffic : Traffic) (round : Nat) : Prop :=
  told traffic.session (.settled round) = 0 ∧ told traffic.session (.cancelled round) = 1 ∧
    (appliedOf traffic.sent traffic.applied round).length <
      (callsOf traffic.sent round).length

/-- What was told of the rounds that were sent so far. -/
structure Closed (traffic : Traffic) : Prop where
  started : ∀ round : Nat, .searchStarted round ∈ traffic.session.log.toList ↔
    1 ≤ round ∧ round ≤ traffic.session.rounds
  unsent : ∀ round : Nat, ¬(1 ≤ round ∧ round ≤ traffic.session.rounds) →
    Unended traffic.session round
  running : ∀ round, traffic.session.round = some round → Unended traffic.session round.id
  finished : ∀ round : Nat, 1 ≤ round → round ≤ traffic.session.rounds →
    (∀ running, traffic.session.round = some running → running.id ≠ round) →
    Settled traffic round ∨ Cancelled traffic round

theorem Unended.of_log {session after : Session} {events : List Event} {round : Nat}
    (h : Unended session round) (hlog : after.log.toList = session.log.toList ++ events)
    (hevents : ∀ other ∈ events, other.isEnd = false) : Unended after round :=
  ⟨(told_of_log hlog hevents rfl).trans h.1, (told_of_log hlog hevents rfl).trans h.2⟩

theorem Unended.of_farewell {session after : Session} {events : List Event} {round : Nat}
    (h : Unended session round)
    (hlog : after.log.toList = session.log.toList ++ session.farewell ++ events)
    (hevents : ∀ other ∈ events, other.isEnd = false)
    (hround : ∀ running, session.round = some running → running.id ≠ round) :
    Unended after round := by
  have hcancelled : session.farewell.count (.cancelled round) = 0 :=
    count_farewell_of_ne fun running hrunning heq =>
      hround running hrunning (Event.cancelled.inj heq).symm
  constructor
  · rw [told_settled_of_farewell hlog hevents, h.1]
  · rw [told_of_farewell hlog hevents rfl, hcancelled, h.2]

namespace Closed

variable {allowed : List Status → Prop} {traffic next : Traffic}

theorem create (query : Query) (surroundings : Surroundings) :
    Closed (Traffic.create (Session.create query surroundings)) := by
  constructor
  · intro round
    have hempty : (Event.searchStarted round) ∉ ([] : List Event) := List.not_mem_nil
    refine iff_of_false hempty fun h => ?_
    exact Nat.not_succ_le_zero 0 (Nat.le_trans h.1 h.2)
  · exact fun round _ => ⟨rfl, rfl⟩
  · intro round hround
    cases hround
  · intro round hpos hle
    exact absurd (Nat.le_trans hpos hle) (Nat.not_succ_le_zero 0)

/-- What became of a round does not change when nothing is told of it and nothing
of it is sent or applied. -/
theorem over_of_frame {after : Traffic} {round : Nat}
    (hsettled : told after.session (.settled round) = told traffic.session (.settled round))
    (hcancelled : told after.session (.cancelled round) =
      told traffic.session (.cancelled round))
    (happlied : appliedOf after.sent after.applied round =
      appliedOf traffic.sent traffic.applied round)
    (hcalls : callsOf after.sent round = callsOf traffic.sent round)
    (h : Settled traffic round ∨ Cancelled traffic round) :
    Settled after round ∨ Cancelled after round := by
  simpa only [Settled, Cancelled, hsettled, hcancelled, happlied, hcalls] using h

/-- When a round is given up, it is told that it was cancelled. -/
theorem over_of_farewell (h : Closed traffic) (hc : Coherent traffic) {after : Traffic}
    {events : List Event}
    (hlog : after.session.log.toList =
      traffic.session.log.toList ++ traffic.session.farewell ++ events)
    (hevents : ∀ other ∈ events, other.isEnd = false) {round : Nat} (hpos : 1 ≤ round)
    (hle : round ≤ traffic.session.rounds)
    (happlied : appliedOf after.sent after.applied round =
      appliedOf traffic.sent traffic.applied round)
    (hcalls : callsOf after.sent round = callsOf traffic.sent round) :
    Settled after round ∨ Cancelled after round := by
  have hsettled := told_settled_of_farewell hlog hevents round
  by_cases hrunning : ∃ running, traffic.session.round = some running ∧ running.id = round
  · obtain ⟨running, hround, rfl⟩ := hrunning
    obtain ⟨hunsettled, huncancelled⟩ := h.running running hround
    obtain ⟨hpositive, hcount⟩ := hc.counted running hround
    have hfarewell : traffic.session.farewell = [.cancelled running.id] := by
      simp [Session.farewell, hround]
    refine .inr ⟨hsettled.trans hunsettled, ?_, ?_⟩
    · rw [told_of_farewell hlog hevents rfl, huncancelled, hfarewell, List.count_singleton_self]
    · rw [happlied, hcalls]
      omega
  · have hother : ∀ running, traffic.session.round = some running → running.id ≠ round :=
      fun running hround hid => hrunning ⟨running, hround, hid⟩
    refine over_of_frame hsettled ?_ happlied hcalls (h.finished round hpos hle hother)
    rw [told_of_farewell hlog hevents rfl, count_farewell_of_ne, Nat.add_zero]
    exact fun running hround heq => hother running hround (Event.cancelled.inj heq).symm

/-- Whether the start of a round was told does not change with other events. -/
theorem mem_searchStarted_append {round : Nat} {earlier events : List Event}
    (hevents : .searchStarted round ∉ events) :
    .searchStarted round ∈ earlier ++ events ↔ .searchStarted round ∈ earlier := by
  rw [List.mem_append, or_iff_left hevents]

theorem searchStarted_notMem_of_quiet {events : List Event}
    (hevents : ∀ event ∈ events, event.round? = none) (round : Nat) :
    .searchStarted round ∉ events := fun hmem => by cases hevents _ hmem

theorem searchStarted_notMem_farewell (session : Session) (round : Nat) :
    .searchStarted round ∉ session.farewell := by
  unfold Session.farewell
  cases session.round <;> simp

/-! ### The moves one by one -/

/-- Of an applied reply nothing is told as an end but that its round settled. -/
theorem told_apply_of_ne {session : Session} {running : Round}
    (hround : session.round = some running) {arrival : Arrival}
    (hid : arrival.round = running.id) {event : Event} (hend : event.isEnd = true)
    (hne : event ≠ .settled running.id) :
    told (session.apply arrival) event = told session event := by
  have hcount : (if running.outstanding ≤ 1 then [Event.settled arrival.round] else []).count
      event = 0 := by
    apply List.count_eq_zero.2
    rw [hid]
    split <;> simp [hne]
  rw [told_apply hround arrival hend, hcount, Nat.add_zero]

theorem appliedOf_concat_of_ne {sent : List Request} {applied : List Nat} {call : Nat}
    {request : Request} (hcall : sent[call]? = some request) {round : RoundId}
    (hne : request.round ≠ round) :
    appliedOf sent (applied ++ [call]) round = appliedOf sent applied round := by
  have hnot : isOf sent round call = false := by
    rw [Bool.eq_false_iff]
    intro hof
    obtain ⟨other, hother, hof⟩ := isOf_eq_true_iff.1 hof
    rw [hcall, Option.some.injEq] at hother
    exact hne (hother ▸ hof)
  rw [appliedOf, List.filter_append, List.filter_cons_of_neg (by simp [hnot]),
    List.filter_nil, List.append_nil, appliedOf]

theorem quiet (h : Closed traffic) {after : Session} {events : List Event}
    (hround : after.round = traffic.session.round)
    (hrounds : after.rounds = traffic.session.rounds)
    (hlog : after.log.toList = traffic.session.log.toList ++ events)
    (hevents : ∀ event ∈ events, event.round? = none) :
    Closed { traffic with session := after } := by
  have hends : ∀ event ∈ events, event.isEnd = false := fun event hevent =>
    Event.isEnd_of_round?_eq_none (hevents event hevent)
  constructor
  case started =>
    intro round
    rw [hlog, hrounds, mem_searchStarted_append (searchStarted_notMem_of_quiet hevents round)]
    exact h.started round
  case unsent =>
    intro round hunsent
    exact (h.unsent round (hrounds ▸ hunsent)).of_log hlog hends
  case running =>
    intro running hrunning
    exact (h.running running (hround ▸ hrunning)).of_log hlog hends
  case finished =>
    intro round hpos hle hother
    exact over_of_frame (told_of_log hlog hends rfl) (told_of_log hlog hends rfl) rfl rfl
      (h.finished round hpos (hrounds ▸ hle) (hround ▸ hother))

/-- Nothing ends that was not sent, not even when a round is given up. -/
theorem unended_of_farewell (h : Closed traffic) (hc : Coherent traffic) {after : Session}
    {events : List Event}
    (hlog : after.log.toList =
      traffic.session.log.toList ++ traffic.session.farewell ++ events)
    (hevents : ∀ other ∈ events, other.isEnd = false) {round : Nat}
    (hunsent : ¬(1 ≤ round ∧ round ≤ traffic.session.rounds)) : Unended after round := by
  apply (h.unsent round hunsent).of_farewell hlog hevents
  intro running hrunning hid
  exact hunsent (hid ▸ hc.id_range hrunning)

theorem giveUp (h : Closed traffic) (hc : Coherent traffic) {after : Session}
    {events : List Event} (hround : after.round = none)
    (hrounds : after.rounds = traffic.session.rounds)
    (hlog : after.log.toList =
      traffic.session.log.toList ++ traffic.session.farewell ++ events)
    (hevents : ∀ event ∈ events, event.round? = none) :
    Closed { traffic with session := after, queue := [] } := by
  have hends : ∀ event ∈ events, event.isEnd = false := fun event hevent =>
    Event.isEnd_of_round?_eq_none (hevents event hevent)
  constructor
  case started =>
    intro round
    rw [hlog, hrounds, mem_searchStarted_append (searchStarted_notMem_of_quiet hevents round),
      mem_searchStarted_append (searchStarted_notMem_farewell _ round)]
    exact h.started round
  case unsent =>
    intro round hunsent
    exact h.unended_of_farewell hc hlog hends (hrounds ▸ hunsent)
  case running =>
    intro running hrunning
    rw [hround] at hrunning
    cases hrunning
  case finished =>
    intro round hpos hle _
    exact h.over_of_farewell hc hlog hends hpos (hrounds ▸ hle) rfl rfl

theorem send (h : Closed traffic) (hc : Coherent traffic) {after : Session}
    {requests : List Request}
    (hround : after.round = some ⟨traffic.session.rounds + 1, requests.length⟩)
    (hrounds : after.rounds = traffic.session.rounds + 1)
    (hlog : after.log.toList = traffic.session.log.toList ++ traffic.session.farewell ++
      [.searchStarted (traffic.session.rounds + 1)])
    (hof : ∀ request ∈ requests, request.round = traffic.session.rounds + 1) :
    Closed { traffic with session := after, sent := traffic.sent ++ requests, queue := [] } := by
  have hends : ∀ event ∈ [Event.searchStarted (traffic.session.rounds + 1)],
      event.isEnd = false := by simp [Event.isEnd]
  constructor
  case started =>
    intro round
    rw [hlog, hrounds, List.mem_append,
      mem_searchStarted_append (searchStarted_notMem_farewell _ round), h.started round,
      List.mem_singleton, Event.searchStarted.injEq]
    constructor
    · rintro (⟨hpos, hle⟩ | rfl)
      · exact ⟨hpos, Nat.le_succ_of_le hle⟩
      · exact ⟨Nat.le_add_left _ _, Nat.le_refl _⟩
    · rintro ⟨hpos, hle⟩
      obtain hle' | heq := Nat.le_succ_iff.1 hle
      · exact .inl ⟨hpos, hle'⟩
      · exact .inr heq
  case unsent =>
    intro round hunsent
    apply h.unended_of_farewell hc hlog hends
    intro hrange
    exact hunsent ⟨hrange.1, hrounds ▸ Nat.le_succ_of_le hrange.2⟩
  case running =>
    intro running hrunning
    rw [hround] at hrunning
    cases hrunning
    apply h.unended_of_farewell hc hlog hends
    intro hrange
    exact Nat.not_succ_le_self _ hrange.2
  case finished =>
    intro round hpos hle hother
    have hne : traffic.session.rounds + 1 ≠ round := hother _ hround
    have hle' : round ≤ traffic.session.rounds := by
      have : round ≤ traffic.session.rounds + 1 := hrounds ▸ hle
      omega
    have hnone : callsOf requests round = [] :=
      callsOf_eq_nil fun request hrequest hid => hne ((hof request hrequest).symm.trans hid)
    apply h.over_of_farewell hc hlog hends hpos hle' (hc.appliedOf_append requests round)
    rw [callsOf_append, hnone, List.map_nil, List.append_nil]

/-- A reply that is applied ends its round if it is the last one, and no other round. -/
theorem apply (h : Closed traffic) (hc : Coherent traffic) {entry : Nat × Arrival}
    {rest : List (Nat × Arrival)} (hqueue : traffic.queue = entry :: rest)
    (hcurrent : isCurrent traffic.session entry.2 = true) :
    Closed
      { traffic with
        session := (traffic.session.apply entry.2).withInbox (rest.map Prod.snd)
        queue := rest
        applied := traffic.applied ++ [entry.1] } := by
  obtain ⟨running, hround, hid⟩ := Session.isCurrent_iff.1 hcurrent
  obtain ⟨hcall, -, -⟩ := hc.head_of_queue hqueue
  obtain ⟨hpositive, hcount⟩ := hc.counted running hround
  obtain ⟨hunsettled, huncancelled⟩ := h.running running hround
  have hrounds : (traffic.session.apply entry.2).rounds = traffic.session.rounds :=
    Session.rounds_apply ..
  have hcancelled : ∀ round : Nat, told (traffic.session.apply entry.2) (.cancelled round) =
      told traffic.session (.cancelled round) := fun round =>
    told_apply_of_ne hround hid rfl nofun
  have hsettled : ∀ round : Nat, round ≠ running.id →
      told (traffic.session.apply entry.2) (.settled round) =
        told traffic.session (.settled round) := fun round hne =>
    told_apply_of_ne hround hid rfl fun heq => hne (Event.settled.inj heq)
  have hrunning := told_apply hround entry.2 (Eq.refl (Event.settled running.id).isEnd)
  rw [hid, hunsettled, Nat.zero_add] at hrunning
  constructor
  case started =>
    intro round
    have hnew : .searchStarted round ∉ traffic.session.recordEvents entry.2 ++
        if running.outstanding ≤ 1 then [.settled entry.2.round] else [] := by
      rw [List.mem_append, not_or]
      constructor
      · apply searchStarted_notMem_of_quiet
        exact fun event hevent => Session.round?_of_mem_recordEvents hevent
      · split <;> simp
    have hstarted := h.started round
    rw [← mem_searchStarted_append hnew, ← List.append_assoc,
      ← Session.toList_log_apply hround entry.2, ← hrounds] at hstarted
    exact hstarted
  case unsent =>
    intro round hunsent
    have hunsent' : ¬(1 ≤ round ∧ round ≤ traffic.session.rounds) := fun hrange =>
      hunsent ⟨hrange.1, hrounds.symm ▸ hrange.2⟩
    have hne : round ≠ running.id := fun heq => hunsent' (heq ▸ hc.id_range hround)
    obtain ⟨hnot, hnone⟩ := h.unsent round hunsent'
    exact ⟨(hsettled round hne).trans hnot, (hcancelled round).trans hnone⟩
  case running =>
    intro later hlater
    obtain ⟨hmore, rfl⟩ := Session.of_round_apply hround hlater
    rw [if_neg (Nat.not_le.2 hmore)] at hrunning
    exact ⟨hrunning, (hcancelled _).trans huncancelled⟩
  case finished =>
    intro round hpos hle hover
    have hle' : round ≤ traffic.session.rounds := hrounds ▸ hle
    by_cases heq : round = running.id
    · -- the round does not run any more, so this was its last reply
      subst heq
      have hlast : running.outstanding ≤ 1 := by
        by_contra hmore
        apply hover ⟨running.id, running.outstanding - 1⟩ _ rfl
        exact (Session.round_apply hround entry.2).trans (if_neg hmore)
      have hof : isOf traffic.sent running.id entry.1 = true :=
        isOf_eq_true_iff.2 ⟨entry.2.request, hcall, hid⟩
      rw [if_pos hlast, List.count_singleton_self] at hrunning
      apply Or.inl
      constructor
      · exact hrunning
      constructor
      · exact (hcancelled _).trans huncancelled
      · simp only [length_appliedOf_concat hof]
        omega
    · have hne : entry.2.request.round ≠ round := fun hof => heq (hof.symm.trans hid)
      have hother : ∀ other, traffic.session.round = some other → other.id ≠ round := by
        intro other hother hsame
        rw [hround, Option.some.injEq] at hother
        exact heq (hother ▸ hsame.symm)
      exact over_of_frame (hsettled round heq) (hcancelled round)
        (appliedOf_concat_of_ne hcall hne) rfl (h.finished round hpos hle' hother)

theorem move (h : Closed traffic) (hc : Coherent traffic) (hmove : Move allowed traffic next) :
    Closed next := by
  cases hmove with
  | quiet after events hround hrounds hinbox hstatuses hlog hevents =>
    exact h.quiet hround hrounds hlog hevents
  | ended after events seeds hseeds hround hrounds hinbox hstatuses hlog hevents =>
    exact h.giveUp hc hround hrounds hlog hevents
  | sent after requests seeds hseeds hrequests hround hrounds hinbox hstatuses hlog hof =>
    exact h.send hc hround hrounds hlog hof
  | answered => exact ⟨h.started, h.unsent, h.running, h.finished⟩
  | dropped => exact ⟨h.started, h.unsent, h.running, h.finished⟩
  | applied entry rest hqueue hcurrent => exact h.apply hc hqueue hcurrent

/-- What was told of the rounds is right after any number of moves. -/
theorem moves (h : Closed traffic) (hc : Coherent traffic) (hmoves : Moves allowed traffic next) :
    Closed next ∧ Coherent next := by
  induction hmoves with
  | refl => exact ⟨h, hc⟩
  | tail _ hmove ih => exact ⟨ih.1.move ih.2 hmove, ih.2.move hmove⟩

theorem run (h : Closed traffic) (hc : Coherent traffic) (actions : List Action) :
    Closed (traffic.run actions) := by
  induction actions generalizing traffic with
  | nil => exact h
  | cons action actions ih =>
    have hmoves : Moves (fun _ => True) traffic (traffic.act action) :=
      moves_act hc.inStep trivial action fun _ _ => trivial
    obtain ⟨hclosed, hcoherent⟩ := h.moves hc hmoves
    exact ih hclosed hcoherent

end Closed

/-! ## Accounts of a run -/

/-- A round was not sent, is running, or is over. -/
theorem Closed.fate {traffic : Traffic} (h : Closed traffic) (hc : Coherent traffic)
    (round : Nat) :
    (.searchStarted round ∉ traffic.session.log.toList ∧ Unended traffic.session round) ∨
    (.searchStarted round ∈ traffic.session.log.toList ∧ Unended traffic.session round ∧
      (∃ running, traffic.session.round = some running ∧ running.id = round) ∧
      (appliedOf traffic.sent traffic.applied round).length <
        (callsOf traffic.sent round).length) ∨
    (.searchStarted round ∈ traffic.session.log.toList ∧
      (∀ running, traffic.session.round = some running → running.id ≠ round) ∧
      (Settled traffic round ∨ Cancelled traffic round)) := by
  rw [h.started round]
  by_cases hrange : 1 ≤ round ∧ round ≤ traffic.session.rounds
  · by_cases hrunning : ∃ running, traffic.session.round = some running ∧ running.id = round
    · obtain ⟨running, hround, rfl⟩ := hrunning
      obtain ⟨hpositive, hcount⟩ := hc.counted running hround
      refine .inr (.inl ⟨hrange, h.running running hround, ⟨running, hround, rfl⟩, ?_⟩)
      omega
    · have hother : ∀ running, traffic.session.round = some running → running.id ≠ round :=
        fun running hround hid => hrunning ⟨running, hround, hid⟩
      exact .inr (.inr ⟨hrange, hother, h.finished round hrange.1 hrange.2 hother⟩)
  · exact .inl ⟨hrange, h.unsent round hrange⟩

/-- Every round is accounted for, whatever the hook makes of its requests and in
whatever order they are answered.  A running round waits for as many replies as it
sent requests and had none applied, and for one at least.  A round that was started
is told to have settled once, if and only if all its requests were applied; it is
told to have been cancelled once, if and only if it was given up before; and neither
is told of it as long as it runs. -/
theorem round_accounting (query : Query) (surroundings : Surroundings) (actions : List Action) :
    let traffic := (Traffic.create (Session.create query surroundings)).run actions
    (∀ round, traffic.session.round = some round →
      1 ≤ round.outstanding ∧
        round.outstanding + (appliedOf traffic.sent traffic.applied round.id).length =
          (callsOf traffic.sent round.id).length) ∧
    (traffic.session.state = .searching ↔ ∃ round, traffic.session.round = some round) ∧
    ∀ round : Nat,
      (told traffic.session (.settled round) = 1 ↔
        .searchStarted round ∈ traffic.session.log.toList ∧
          ∀ call ∈ callsOf traffic.sent round, call ∈ traffic.applied) ∧
      (told traffic.session (.cancelled round) = 1 ↔
        .searchStarted round ∈ traffic.session.log.toList ∧
          (∀ running, traffic.session.round = some running → running.id ≠ round) ∧
          ∃ call ∈ callsOf traffic.sent round, call ∉ traffic.applied) ∧
      told traffic.session (.settled round) + told traffic.session (.cancelled round) ≤ 1 := by
  intro traffic
  have hc : Coherent traffic := (Coherent.create query surroundings).run actions
  have h : Closed traffic := (Closed.create query surroundings).run
    (Coherent.create query surroundings) actions
  have hstate : traffic.session.state = .searching ↔
      ∃ round, traffic.session.round = some round := by
    rw [← Option.isSome_iff_exists, Session.state]
    split
    · simp_all
    · split <;> simp_all
  refine ⟨hc.counted, hstate, fun round => ?_⟩
  have hall := hc.length_appliedOf_eq_iff round
  have hsome : (∃ call ∈ callsOf traffic.sent round, call ∉ traffic.applied) ↔
      ¬(appliedOf traffic.sent traffic.applied round).length =
        (callsOf traffic.sent round).length := by
    rw [hall]
    push Not
    rfl
  rw [← hall, hsome]
  obtain ⟨hstarted, hsettled, hcancelled⟩ |
    ⟨hstarted, ⟨hsettled, hcancelled⟩, ⟨running, hround, hid⟩, hlength⟩ |
    ⟨hstarted, hover, ⟨hsettled, hcancelled, hlength⟩ | ⟨hsettled, hcancelled, hlength⟩⟩ :=
    h.fate hc round
  · simp [hsettled, hcancelled, hstarted]
  · have hrunning : ¬∀ running, traffic.session.round = some running → running.id ≠ round :=
      fun hover => hover running hround hid
    simp [hsettled, hcancelled, Nat.ne_of_lt hlength, hrunning]
  · simp [hsettled, hcancelled, hstarted, hlength]
  · simpa [hsettled, hcancelled, hstarted, Nat.ne_of_lt hlength] using hover

end Traffic

end CatalogSearch
