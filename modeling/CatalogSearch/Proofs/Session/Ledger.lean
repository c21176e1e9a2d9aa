import CatalogSearch.Proofs.Session.Moves
import Mathlib.Data.List.Nodup
import Mathlib.Data.List.Perm.Subperm
import Mathlib.Data.List.Range

/-!
# Accounts of a traffic

Every request is accounted for: it is on its way, its reply waits in the inbox, was
applied or was dropped.  A running round waits for exactly those of its requests
whose replies were not applied.
-/

namespace CatalogSearch.Traffic

/-- Whether the request of a given number was sent in a round. -/
def isOf (sent : List Request) (round : RoundId) (call : Nat) : Bool :=
  sent[call]?.any fun request => request.round == round

/-- The numbers of the requests that were sent in a round. -/
def callsOf (sent : List Request) (round : RoundId) : List Nat :=
  (List.range sent.length).filter (isOf sent round)

theorem isOf_eq_true_iff {sent : List Request} {round : RoundId} {call : Nat} :
    isOf sent round call = true ↔
      ∃ request, sent[call]? = some request ∧ request.round = round := by
  simp [isOf, Option.any_eq_true]

theorem mem_callsOf {sent : List Request} {round : RoundId} {call : Nat} :
    call ∈ callsOf sent round ↔ isOf sent round call = true := by
  rw [callsOf, List.mem_filter, List.mem_range, and_iff_right_iff_imp, isOf_eq_true_iff]
  rintro ⟨request, hcall, -⟩
  exact (List.getElem?_eq_some_iff.1 hcall).1

theorem nodup_callsOf (sent : List Request) (round : RoundId) : (callsOf sent round).Nodup :=
  List.nodup_range.filter _

theorem isOf_append_of_lt {sent : List Request} (requests : List Request) (round : RoundId)
    {call : Nat} (h : call < sent.length) :
    isOf (sent ++ requests) round call = isOf sent round call := by
  rw [isOf, isOf, List.getElem?_append_left h]

theorem isOf_append_right (sent requests : List Request) (round : RoundId) (index : Nat) :
    isOf (sent ++ requests) round (sent.length + index) = isOf requests round index := by
  rw [isOf, isOf, List.getElem?_append_right (Nat.le_add_right _ _), Nat.add_sub_cancel_left]

/-- The requests of a round are those sent earlier, then those sent last. -/
theorem callsOf_append (sent requests : List Request) (round : RoundId) :
    callsOf (sent ++ requests) round =
      callsOf sent round ++ (callsOf requests round).map (sent.length + ·) := by
  rw [callsOf, List.length_append, List.range_add, List.filter_append]
  congr 1
  · exact List.filter_congr fun call hcall =>
      isOf_append_of_lt requests round (List.mem_range.1 hcall)
  · rw [List.filter_map, callsOf]
    congr 1
    exact List.filter_congr fun index _ => isOf_append_right sent requests round index

theorem callsOf_eq_nil {requests : List Request} {round : RoundId}
    (h : ∀ request ∈ requests, request.round ≠ round) : callsOf requests round = [] := by
  rw [List.eq_nil_iff_forall_not_mem]
  intro call hcall
  obtain ⟨request, hrequest, hround⟩ := isOf_eq_true_iff.1 (mem_callsOf.1 hcall)
  exact h request (List.mem_of_getElem? hrequest) hround

theorem callsOf_eq_range {requests : List Request} {round : RoundId}
    (h : ∀ request ∈ requests, request.round = round) :
    callsOf requests round = List.range requests.length := by
  refine List.filter_eq_self.2 fun call hcall => ?_
  have hlt := List.mem_range.1 hcall
  exact isOf_eq_true_iff.2 ⟨_, List.getElem?_eq_getElem hlt, h _ (List.getElem_mem hlt)⟩

/-- The numbers of the applied requests of a round. -/
def appliedOf (sent : List Request) (applied : List Nat) (round : RoundId) : List Nat :=
  applied.filter (isOf sent round)

theorem length_appliedOf_concat {sent : List Request} {round : RoundId} {call : Nat}
    (h : isOf sent round call = true) (applied : List Nat) :
    (appliedOf sent (applied ++ [call]) round).length =
      (appliedOf sent applied round).length + 1 := by
  rw [appliedOf, List.filter_append, List.filter_cons_of_pos h, List.length_append]
  rfl

/-- Every request of a traffic is accounted for. -/
structure Coherent (traffic : Traffic) : Prop where
  inStep : traffic.InStep
  sent_round : ∀ request ∈ traffic.sent,
    1 ≤ request.round ∧ request.round ≤ traffic.session.rounds
  queued : ∀ entry ∈ traffic.queue, traffic.sent[entry.1]? = some entry.2.request
  nodup : (traffic.applied ++ traffic.queue.map Prod.fst).Nodup
  reported : ∀ call ∈ traffic.applied ++ traffic.queue.map Prod.fst, call ∈ traffic.answered
  answered_lt : ∀ call ∈ traffic.answered, call < traffic.sent.length
  counted : ∀ round, traffic.session.round = some round →
    1 ≤ round.outstanding ∧
      round.outstanding + (appliedOf traffic.sent traffic.applied round.id).length =
        (callsOf traffic.sent round.id).length

namespace Coherent

variable {allowed : List Status → Prop} {traffic next : Traffic}

theorem create (query : Query) (surroundings : Surroundings) :
    Coherent (Traffic.create (Session.create query surroundings)) := by
  constructor <;> simp [Traffic.create, Session.create, InStep]

theorem applied_lt (h : Coherent traffic) {call : Nat} (hcall : call ∈ traffic.applied) :
    call < traffic.sent.length :=
  h.answered_lt call (h.reported call (List.mem_append_left _ hcall))

/-- No request was sent in a round to come. -/
theorem callsOf_eq_nil_of_lt (h : Coherent traffic) {round : RoundId}
    (hround : traffic.session.rounds < round) : callsOf traffic.sent round = [] :=
  callsOf_eq_nil fun request hrequest hof =>
    Nat.not_le.2 hround (hof ▸ (h.sent_round request hrequest).2)

/-- The running round was sent. -/
theorem id_range (h : Coherent traffic) {round : Round}
    (hround : traffic.session.round = some round) :
    1 ≤ round.id ∧ round.id ≤ traffic.session.rounds := by
  obtain ⟨hpos, hcount⟩ := h.counted round hround
  have hcalls : callsOf traffic.sent round.id ≠ [] := by
    intro hnil
    rw [hnil, List.length_nil] at hcount
    omega
  obtain ⟨call, hcall⟩ := List.exists_mem_of_ne_nil _ hcalls
  obtain ⟨request, hrequest, hof⟩ := isOf_eq_true_iff.1 (mem_callsOf.1 hcall)
  exact hof ▸ h.sent_round request (List.mem_of_getElem? hrequest)

theorem appliedOf_append (h : Coherent traffic) (requests : List Request) (round : RoundId) :
    appliedOf (traffic.sent ++ requests) traffic.applied round =
      appliedOf traffic.sent traffic.applied round :=
  List.filter_congr fun _ hcall => isOf_append_of_lt requests round (h.applied_lt hcall)

theorem appliedOf_subset (sent : List Request) (applied : List Nat) (round : RoundId) :
    appliedOf sent applied round ⊆ callsOf sent round := by
  intro call hcall
  exact mem_callsOf.2 (List.mem_filter.1 hcall).2

theorem appliedOf_eq_nil_of_lt (h : Coherent traffic) {round : RoundId}
    (hround : traffic.session.rounds < round) :
    appliedOf traffic.sent traffic.applied round = [] := by
  have hsubset := appliedOf_subset traffic.sent traffic.applied round
  rw [h.callsOf_eq_nil_of_lt hround] at hsubset
  exact List.eq_nil_of_subset_nil hsubset

/-- The first entry of the queue was neither applied nor is it there twice. -/
theorem head_of_queue (h : Coherent traffic) {entry : Nat × Arrival}
    {rest : List (Nat × Arrival)} (hqueue : traffic.queue = entry :: rest) :
    traffic.sent[entry.1]? = some entry.2.request ∧ entry.1 ∉ traffic.applied ∧
      (traffic.applied ++ [entry.1] ++ rest.map Prod.fst).Nodup := by
  have hnodup := h.nodup
  rw [hqueue, List.map_cons] at hnodup
  refine ⟨h.queued entry (by simp [hqueue]), fun hmem => ?_, by simpa using hnodup⟩
  exact (List.nodup_append.1 hnodup).2.2 _ hmem _ (by simp) rfl

/-- What was reported stays reported when the inbox is emptied. -/
theorem reported_of_applied (h : Coherent traffic) {call : Nat}
    (hcall : call ∈ traffic.applied ++ [].map Prod.fst (α := Nat × Arrival)) :
    call ∈ traffic.answered := by
  rw [List.map_nil, List.append_nil] at hcall
  exact h.reported call (List.mem_append_left _ hcall)

theorem nodup_applied (h : Coherent traffic) : traffic.applied.Nodup :=
  (List.nodup_append.1 h.nodup).1

/-! ### The moves one by one -/

theorem quiet (h : Coherent traffic) {after : Session}
    (hround : after.round = traffic.session.round) (hrounds : after.rounds = traffic.session.rounds)
    (hinbox : after.inbox = traffic.session.inbox) :
    Coherent { traffic with session := after } where
  inStep := hinbox.trans h.inStep
  sent_round := by simpa only [hrounds] using h.sent_round
  queued := h.queued
  nodup := h.nodup
  reported := h.reported
  answered_lt := h.answered_lt
  counted := by simpa only [hround] using h.counted

theorem giveUp (h : Coherent traffic) {after : Session} (hround : after.round = none)
    (hrounds : after.rounds = traffic.session.rounds) (hinbox : after.inbox = []) :
    Coherent { traffic with session := after, queue := [] } where
  inStep := hinbox
  sent_round := by simpa only [hrounds] using h.sent_round
  queued := nofun
  nodup := by simpa using h.nodup_applied
  reported _ hcall := h.reported_of_applied hcall
  answered_lt := h.answered_lt
  counted := by simp [hround]

/-- A round that is sent waits for a reply to each of its requests. -/
theorem send (h : Coherent traffic) {after : Session} {requests : List Request}
    (hrequests : requests ≠ [])
    (hround : after.round = some ⟨traffic.session.rounds + 1, requests.length⟩)
    (hrounds : after.rounds = traffic.session.rounds + 1) (hinbox : after.inbox = [])
    (hof : ∀ request ∈ requests, request.round = traffic.session.rounds + 1) :
    Coherent
      { traffic with session := after, sent := traffic.sent ++ requests, queue := [] } where
  inStep := hinbox
  sent_round := by
    intro request hrequest
    rw [hrounds]
    obtain hold | hnew := List.mem_append.1 hrequest
    · have := h.sent_round request hold
      exact ⟨this.1, Nat.le_succ_of_le this.2⟩
    · rw [hof request hnew]
      exact ⟨Nat.le_add_left _ _, Nat.le_refl _⟩
  queued := nofun
  nodup := by simpa using h.nodup_applied
  reported _ hcall := h.reported_of_applied hcall
  answered_lt := by
    intro call hcall
    rw [List.length_append]
    exact Nat.lt_add_right _ (h.answered_lt call hcall)
  counted := by
    intro round hcurrent
    rw [hround, Option.some.injEq] at hcurrent
    subst hcurrent
    have hlt : traffic.session.rounds < traffic.session.rounds + 1 := Nat.lt_succ_self _
    simp only [callsOf_append, h.appliedOf_append, h.callsOf_eq_nil_of_lt hlt,
      h.appliedOf_eq_nil_of_lt hlt, callsOf_eq_range hof]
    simpa [Nat.one_le_iff_ne_zero] using hrequests

theorem receive (h : Coherent traffic) {call : Nat} {request : Request}
    (hcall : traffic.sent[call]? = some request) (hnew : call ∉ traffic.answered)
    (reply : Reply) :
    Coherent
      { traffic with
        session := traffic.session.deliver ⟨request, reply⟩
        answered := traffic.answered ++ [call]
        queue := traffic.queue ++ [(call, ⟨request, reply⟩)] } where
  inStep := by
    change traffic.session.inbox ++ _ = (traffic.queue ++ _).map Prod.snd
    rw [List.map_append, ← h.inStep]
    rfl
  sent_round := h.sent_round
  queued := by
    intro entry hentry
    obtain hold | hlast := List.mem_append.1 hentry
    · exact h.queued entry hold
    · rw [List.mem_singleton.1 hlast]
      exact hcall
  nodup := by
    rw [List.map_append, ← List.append_assoc, List.map_singleton, ← List.concat_eq_append]
    apply List.Nodup.concat
    · exact fun hmem => hnew (h.reported call hmem)
    · exact h.nodup
  reported := by
    intro other hother
    rw [List.map_append, ← List.append_assoc] at hother
    obtain hold | hlast := List.mem_append.1 hother
    · exact List.mem_append_left _ (h.reported other hold)
    · exact List.mem_append_right _ hlast
  answered_lt := by
    intro other hother
    obtain hold | hlast := List.mem_append.1 hother
    · exact h.answered_lt other hold
    · rw [List.mem_singleton.1 hlast]
      exact (List.getElem?_eq_some_iff.1 hcall).1
  counted := h.counted

theorem drop (h : Coherent traffic) {entry : Nat × Arrival} {rest : List (Nat × Arrival)}
    (hqueue : traffic.queue = entry :: rest) :
    Coherent
      { traffic with session := traffic.session.withInbox (rest.map Prod.snd), queue := rest } where
  inStep := rfl
  sent_round := h.sent_round
  queued other hother := h.queued other (hqueue ▸ List.mem_cons_of_mem _ hother)
  nodup := by
    obtain ⟨-, -, hnodup⟩ := h.head_of_queue hqueue
    exact hnodup.sublist ((List.sublist_append_left _ _).append_right _)
  reported := by
    intro call hcall
    apply h.reported call
    rw [hqueue]
    simp only [List.map_cons, List.mem_append, List.mem_cons] at hcall ⊢
    exact hcall.imp_right .inr
  answered_lt := h.answered_lt
  counted := h.counted

/-- A reply that is applied leaves its round with one less to wait for. -/
theorem apply (h : Coherent traffic) {entry : Nat × Arrival} {rest : List (Nat × Arrival)}
    (hqueue : traffic.queue = entry :: rest)
    (hcurrent : isCurrent traffic.session entry.2 = true) :
    Coherent
      { traffic with
        session := (traffic.session.apply entry.2).withInbox (rest.map Prod.snd)
        queue := rest
        applied := traffic.applied ++ [entry.1] } := by
  obtain ⟨hcall, -, hnodup⟩ := h.head_of_queue hqueue
  obtain ⟨running, hround, hid⟩ := Session.isCurrent_iff.1 hcurrent
  have hrounds : (traffic.session.apply entry.2).rounds = traffic.session.rounds :=
    Session.rounds_apply ..
  constructor
  case inStep => rfl
  case sent_round =>
    intro request hrequest
    exact hrounds.symm ▸ h.sent_round request hrequest
  case queued =>
    intro other hother
    exact h.queued other (hqueue ▸ List.mem_cons_of_mem _ hother)
  case nodup => exact hnodup
  case reported =>
    intro call hreported
    apply h.reported call
    rw [hqueue]
    simpa using hreported
  case answered_lt => exact h.answered_lt
  case counted =>
    intro later hround'
    obtain ⟨hmore, rfl⟩ := Session.of_round_apply hround hround'
    obtain ⟨-, hcount⟩ := h.counted running hround
    have hof : isOf traffic.sent running.id entry.1 = true :=
      isOf_eq_true_iff.2 ⟨entry.2.request, hcall, hid⟩
    simp only [length_appliedOf_concat hof]
    omega

theorem move (h : Coherent traffic) (hmove : Move allowed traffic next) : Coherent next := by
  cases hmove with
  | quiet after events hround hrounds hinbox => exact h.quiet hround hrounds hinbox
  | ended after events seeds hseeds hround hrounds hinbox => exact h.giveUp hround hrounds hinbox
  | sent after requests seeds hseeds hrequests hround hrounds hinbox hstatuses hlog hof =>
    exact h.send hrequests hround hrounds hinbox hof
  | answered call request reply hcall hnew => exact h.receive hcall hnew reply
  | dropped entry rest hqueue hcurrent => exact h.drop hqueue
  | applied entry rest hqueue hcurrent => exact h.apply hqueue hcurrent

/-- All requests of a round were applied as soon as as many were applied as sent. -/
theorem length_appliedOf_eq_iff (h : Coherent traffic) (round : Nat) :
    (appliedOf traffic.sent traffic.applied round).length =
        (callsOf traffic.sent round).length ↔
      ∀ call ∈ callsOf traffic.sent round, call ∈ traffic.applied := by
  have hnodup : (appliedOf traffic.sent traffic.applied round).Nodup :=
    h.nodup_applied.filter _
  constructor
  · intro hlength call hcall
    have hperm := (hnodup.subperm (appliedOf_subset _ _ _)).perm_of_length_le
      (Nat.le_of_eq hlength.symm)
    exact (List.mem_filter.1 (hperm.mem_iff.2 hcall)).1
  · intro hall
    have hsubset : callsOf traffic.sent round ⊆
        appliedOf traffic.sent traffic.applied round := fun call hcall =>
      List.mem_filter.2 ⟨hall call hcall, mem_callsOf.1 hcall⟩
    exact Nat.le_antisymm (hnodup.subperm (appliedOf_subset _ _ _)).length_le
      ((nodup_callsOf _ _).subperm hsubset).length_le

/-- The last reply of a round is the last of its requests to be applied. -/
theorem applied_of_last (h : Coherent traffic) {entry : Nat × Arrival}
    {rest : List (Nat × Arrival)} (hqueue : traffic.queue = entry :: rest) {round : Round}
    (hround : traffic.session.round = some round) (hid : entry.2.round = round.id)
    (hlast : round.outstanding ≤ 1) :
    ∀ call ∈ callsOf traffic.sent round.id, call ∈ traffic.applied ++ [entry.1] := by
  have hcurrent : isCurrent traffic.session entry.2 = true :=
    Session.isCurrent_iff.2 ⟨round, hround, hid⟩
  have hmove : Move (fun _ => True) traffic _ := .applied entry rest hqueue hcurrent
  have hnext := h.move hmove
  obtain ⟨hcall, -, -⟩ := h.head_of_queue hqueue
  obtain ⟨hpositive, hcount⟩ := h.counted round hround
  refine (hnext.length_appliedOf_eq_iff round.id).1 ?_
  have hof : isOf traffic.sent round.id entry.1 = true :=
    isOf_eq_true_iff.2 ⟨entry.2.request, hcall, hid⟩
  simp only [length_appliedOf_concat hof]
  omega

/-- Everything is accounted for after any number of moves. -/
theorem moves (h : Coherent traffic) (hmoves : Moves allowed traffic next) : Coherent next := by
  induction hmoves with
  | refl => exact h
  | tail _ hmove ih => exact ih.move hmove

theorem act (h : Coherent traffic) (action : Action) : Coherent (traffic.act action) := by
  have hmoves : Moves (fun _ => True) traffic (traffic.act action) :=
    moves_act h.inStep trivial action fun _ _ => trivial
  exact h.moves hmoves

theorem run (h : Coherent traffic) (actions : List Action) : Coherent (traffic.run actions) := by
  induction actions generalizing traffic with
  | nil => exact h
  | cons action actions ih => exact ih (h.act action)

end Coherent

end CatalogSearch.Traffic
