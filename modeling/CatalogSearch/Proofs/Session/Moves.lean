import CatalogSearch.Proofs.Session.Pulling
import Mathlib.Logic.Relation

/-!
# Moves of a traffic

Every action is a sequence of moves of six kinds: three effects of the owner's
operations, a reply that arrives, and a reply that is pulled, either dropped or
applied.  An invariant of a traffic is shown for the moves and holds after every
run.
-/

namespace CatalogSearch.Traffic

variable {allowed : List Status → Prop} {traffic : Traffic}

/-- The smallest steps of a traffic, where callers seed searches as is `allowed`. -/
inductive Move (allowed : List Status → Prop) (traffic : Traffic) : Traffic → Prop
  | quiet (after : Session) (events : List Event)
      (hround : after.round = traffic.session.round)
      (hrounds : after.rounds = traffic.session.rounds)
      (hinbox : after.inbox = traffic.session.inbox)
      (hstatuses : after.statuses = traffic.session.statuses)
      (hlog : after.log.toList = traffic.session.log.toList ++ events)
      (hevents : ∀ event ∈ events, event.round? = none) :
      Move allowed traffic { traffic with session := after }
  | ended (after : Session) (events : List Event) (seeds : List Status)
      (hseeds : allowed seeds ∨ traffic.session.round = none ∧ seeds = traffic.session.statuses)
      (hround : after.round = none) (hrounds : after.rounds = traffic.session.rounds)
      (hinbox : after.inbox = [])
      (hstatuses :
        after.statuses = traffic.session.statuses.finish ∨ after.statuses = .start [] seeds)
      (hlog : after.log.toList =
        traffic.session.log.toList ++ traffic.session.farewell ++ events)
      (hevents : ∀ event ∈ events, event.round? = none) :
      Move allowed traffic { traffic with session := after, queue := [] }
  | sent (after : Session) (requests : List Request) (seeds : List Status)
      (hseeds : allowed seeds ∨ traffic.session.round = none ∧ seeds = traffic.session.statuses)
      (hrequests : requests ≠ [])
      (hround : after.round = some ⟨traffic.session.rounds + 1, requests.length⟩)
      (hrounds : after.rounds = traffic.session.rounds + 1) (hinbox : after.inbox = [])
      (hstatuses : after.statuses = .start (Session.askedSources requests) seeds)
      (hlog : after.log.toList = traffic.session.log.toList ++ traffic.session.farewell ++
        [.searchStarted (traffic.session.rounds + 1)])
      (hof : ∀ request ∈ requests, request.round = traffic.session.rounds + 1) :
      Move allowed traffic
        { traffic with session := after, sent := traffic.sent ++ requests, queue := [] }
  | answered (call : Nat) (request : Request) (reply : Reply)
      (hcall : traffic.sent[call]? = some request) (hnew : call ∉ traffic.answered) :
      Move allowed traffic
        { traffic with
          session := traffic.session.deliver ⟨request, reply⟩
          answered := traffic.answered ++ [call]
          queue := traffic.queue ++ [(call, ⟨request, reply⟩)] }
  | dropped (entry : Nat × Arrival) (rest : List (Nat × Arrival))
      (hqueue : traffic.queue = entry :: rest)
      (hcurrent : isCurrent traffic.session entry.2 = false) :
      Move allowed traffic
        { traffic with session := traffic.session.withInbox (rest.map Prod.snd), queue := rest }
  | applied (entry : Nat × Arrival) (rest : List (Nat × Arrival))
      (hqueue : traffic.queue = entry :: rest)
      (hcurrent : isCurrent traffic.session entry.2 = true) :
      Move allowed traffic
        { traffic with
          session := (traffic.session.apply entry.2).withInbox (rest.map Prod.snd)
          queue := rest
          applied := traffic.applied ++ [entry.1] }

/-- Any number of moves. -/
abbrev Moves (allowed : List Status → Prop) : Traffic → Traffic → Prop :=
  Relation.ReflTransGen (Move allowed)

/-- The numbered inbox is the inbox of the session. -/
def InStep (traffic : Traffic) : Prop :=
  traffic.session.inbox = traffic.queue.map Prod.snd

theorem Move.inStep {next : Traffic} (h : Move allowed traffic next)
    (hstep : traffic.InStep) : next.InStep := by
  cases h with
  | quiet after events _ _ hinbox => exact hinbox.trans hstep
  | ended after events seeds _ _ _ hinbox => exact hinbox
  | sent after requests seeds _ _ _ _ hinbox => exact hinbox
  | answered call request reply =>
    simp only [InStep, Session.deliver, List.map_append, List.map_cons, List.map_nil]
    rw [show traffic.session.inbox = traffic.queue.map Prod.snd from hstep]
  | dropped => rfl
  | applied => rfl

theorem Moves.inStep {next : Traffic} (h : Moves allowed traffic next)
    (hstep : traffic.InStep) : next.InStep := by
  induction h with
  | refl => exact hstep
  | tail _ hmove ih => exact hmove.inStep ih

/-! ## Operations as moves -/

theorem applies_of_not_pulls (traffic : Traffic) {operation : Operation}
    (h : operation.pulls = false) : traffic.applies operation = [] := by
  simp [applies, h]

/-- An operation that leaves the inbox as it is leaves the queue as it is. -/
theorem operate_of_inbox_eq {operation : Operation} (h : operation.pulls = false)
    (hinbox : (operation.run traffic.session).1.inbox = traffic.session.inbox) :
    traffic.operate operation =
      { traffic with
        session := (operation.run traffic.session).1
        sent := traffic.sent ++ (operation.run traffic.session).2 } := by
  simp [operate, applies_of_not_pulls traffic h, taken, hinbox]

/-- An operation that empties the inbox empties the queue. -/
theorem operate_of_inbox_nil (hstep : traffic.InStep) {operation : Operation}
    (h : operation.pulls = false) (hinbox : (operation.run traffic.session).1.inbox = []) :
    traffic.operate operation =
      { traffic with
        session := (operation.run traffic.session).1
        sent := traffic.sent ++ (operation.run traffic.session).2
        queue := [] } := by
  have hlength : traffic.session.inbox.length = traffic.queue.length := by
    rw [show traffic.session.inbox = traffic.queue.map Prod.snd from hstep, List.length_map]
  simp [operate, applies_of_not_pulls traffic h, taken, hinbox, hlength]

theorem seeds_cases (session : Session) {operation : Operation} (hnil : allowed [])
    (h : allowed operation.callerSeeds) :
    allowed (operation.seeds session) ∨
      session.round = none ∧ operation.seeds session = session.statuses := by
  cases operation with
  | widen wanted found =>
    cases hround : session.round with
    | none => exact .inr ⟨rfl, by simp [Operation.seeds, hround]⟩
    | some round => exact .inl (by simpa [Operation.seeds, hround] using hnil)
  | _ => exact .inl h

theorem move_operate (hstep : traffic.InStep) {operation : Operation}
    (hpulls : operation.pulls = false) (hnil : allowed [])
    (hallowed : allowed operation.callerSeeds) :
    Move allowed traffic (traffic.operate operation) := by
  have hseeds := seeds_cases traffic.session hnil hallowed
  have heffect := operation.effect_run traffic.session hpulls
  generalize hrequests : (operation.run traffic.session).2 = requests at heffect
  cases heffect with
  | quiet events hround hrounds hinbox hstatuses hlog hevents =>
    rw [operate_of_inbox_eq hpulls hinbox, hrequests, List.append_nil]
    exact .quiet _ events hround hrounds hinbox hstatuses hlog hevents
  | ended events hround hrounds hinbox hstatuses hlog hevents =>
    rw [operate_of_inbox_nil hstep hpulls hinbox, hrequests, List.append_nil]
    exact .ended _ events _ hseeds hround hrounds hinbox hstatuses hlog hevents
  | sent requests hsome hround hrounds hinbox hstatuses hlog hof =>
    rw [operate_of_inbox_nil hstep hpulls hinbox, hrequests]
    exact .sent _ requests _ hseeds hsome hround hrounds hinbox hstatuses hlog hof

/-- An operation that takes the front part of the inbox and leaves the rest. -/
theorem operate_of_split (hstep : traffic.InStep) {operation : Operation}
    (hpulls : operation.pulls = true) {front rest : List (Nat × Arrival)} {after : Session}
    (hsplit : traffic.queue = front ++ rest)
    (hrun : (operation.run traffic.session).1 = after.withInbox (rest.map Prod.snd)) :
    traffic.applies operation =
        (front.filter fun entry => isCurrent traffic.session entry.2).map Prod.fst ∧
      traffic.operate operation =
        { traffic with
          session := after.withInbox (rest.map Prod.snd)
          queue := rest
          applied := traffic.applied ++ traffic.applies operation } := by
  have hsent : (operation.run traffic.session).2 = [] := by
    cases operation <;> first | rfl | cases hpulls
  have htaken : traffic.taken operation = front := by
    have hlength : traffic.session.inbox.length = front.length + rest.length := by
      rw [show traffic.session.inbox = traffic.queue.map Prod.snd from hstep, hsplit]
      simp
    have hrest : (operation.run traffic.session).1.inbox.length = rest.length := by
      rw [hrun]
      simp [Session.withInbox]
    rw [taken, hlength, hrest, Nat.add_sub_cancel, hsplit, List.take_left]
  have hdrop : traffic.queue.drop front.length = rest := by
    rw [hsplit, List.drop_left]
  refine ⟨by simp [applies, hpulls, htaken], ?_⟩
  simp [operate, htaken, hdrop, hsent, hrun]

/-- What an operation that pulls comes to. -/
theorem operate_of_pulls (hstep : traffic.InStep) {operation : Operation}
    (hpulls : operation.pulls = true) :
    ∃ front rest after,
      Session.PullsOut (fun inbox => (operation.run (traffic.session.withInbox inbox)).1)
          traffic.session traffic.queue front rest after ∧
        traffic.applies operation =
          (front.filter fun entry => isCurrent traffic.session entry.2).map Prod.fst ∧
        traffic.operate operation =
          { traffic with
            session := after.withInbox (rest.map Prod.snd)
            queue := rest
            applied := traffic.applied ++ traffic.applies operation } := by
  obtain ⟨front, rest, after, hpull⟩ := exists_pullsOut traffic.session hpulls traffic.queue
  have hrun := run_of_pullsOut hpull hstep
  exact ⟨front, rest, after, hpull, operate_of_split hstep hpulls hpull.split hrun⟩

/-- A traffic whose session is given up to its inbox, which is that of the queue. -/
def ofQueue (session : Session) (sent : List Request) (answered : List Nat)
    (queue : List (Nat × Arrival)) (applied : List Nat) : Traffic :=
  ⟨session.withInbox (queue.map Prod.snd), sent, answered, queue, applied⟩

theorem move_of_stale {session : Session} {entry : Nat × Arrival}
    (h : isCurrent session entry.2 = false) (sent : List Request) (answered : List Nat)
    (queue : List (Nat × Arrival)) (applied : List Nat) :
    Move allowed (ofQueue session sent answered (entry :: queue) applied)
      (ofQueue session sent answered queue applied) :=
  .dropped entry queue rfl h

theorem move_of_current {session : Session} {entry : Nat × Arrival}
    (h : isCurrent session entry.2 = true) (sent : List Request) (answered : List Nat)
    (queue : List (Nat × Arrival)) (applied : List Nat) :
    Move allowed (ofQueue session sent answered (entry :: queue) applied)
      (ofQueue (session.apply entry.2) sent answered queue (applied ++ [entry.1])) := by
  have hmove : Move allowed (ofQueue session sent answered (entry :: queue) applied) _ :=
    .applied entry queue rfl h
  have hsession := Session.withInbox_apply session entry.2 ((entry :: queue).map Prod.snd)
  change Move allowed _ ⟨((session.withInbox _).apply entry.2).withInbox _, _, _, _, _⟩ at hmove
  rw [hsession] at hmove
  exact hmove

theorem moves_of_pulled {session after : Session} {queue rest : List (Nat × Arrival)}
    {calls : List Nat} (h : Session.Pulled session queue after rest calls) (sent : List Request)
    (answered applied : List Nat) :
    Moves allowed (ofQueue session sent answered queue applied)
      (ofQueue after sent answered rest (applied ++ calls)) := by
  induction h generalizing applied with
  | stop session queue => rw [List.append_nil]
  | drop hcurrent _ ih => exact .head (move_of_stale hcurrent _ _ _ _) (ih applied)
  | @apply session after entry queue rest calls hcurrent _ ih =>
    have hrest := ih (applied ++ [entry.1])
    rw [List.append_assoc, List.singleton_append] at hrest
    exact .head (move_of_current hcurrent _ _ _ _) hrest

/-- A traffic is determined by its queue and its session but for the inbox. -/
theorem eq_ofQueue (hstep : traffic.InStep) :
    traffic = ofQueue traffic.session traffic.sent traffic.answered traffic.queue
      traffic.applied := by
  rw [ofQueue, ← show traffic.session.inbox = traffic.queue.map Prod.snd from hstep]
  rfl

theorem moves_act (hstep : traffic.InStep) (hnil : allowed []) (action : Action)
    (hallowed : ∀ operation, action = .operate operation → allowed operation.callerSeeds) :
    Moves allowed traffic (traffic.act action) := by
  cases action with
  | operate operation =>
    cases hpulls : operation.pulls with
    | false => exact .single (move_operate hstep hpulls hnil (hallowed operation rfl))
    | true =>
      obtain ⟨front, rest, after, hpull, happlies, hoperate⟩ := operate_of_pulls hstep hpulls
      rw [act, hoperate, happlies]
      exact (congrArg (fun first => Moves allowed first _) (eq_ofQueue hstep)).mpr
        (moves_of_pulled hpull.pulled _ _ _)
  | answer call reply =>
    simp only [act, answer]
    split
    · exact .refl
    · rename_i request hcall
      split
      · exact .refl
      · rename_i hnew
        exact .single (.answered call request reply hcall hnew)

end CatalogSearch.Traffic
