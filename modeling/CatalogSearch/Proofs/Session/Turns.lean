import CatalogSearch.Proofs.Session.Sending

/-!
# Taking turns

While a session waits for a round, replies arrive and its owner pulls them, in turns: one
at a time or all that are there, at any moment.  Whatever the turns are, the replies to
the round are applied in the order in which they arrive, and each of them once all were
pulled.  So what comes of a round is a matter of that order only.
-/

namespace CatalogSearch

/-- What happens while a session waits. -/
inductive Turn
  | arrives (arrival : Arrival)
  | nextUpdate
  | poll

namespace Turn

def arrival? : Turn → Option Arrival
  | arrives arrival => some arrival
  | nextUpdate | poll => none

end Turn

/-- The replies to a round among some arrivals. -/
def ofRound (round : RoundId) (arrivals : List Arrival) : List Arrival :=
  arrivals.filter fun arrival => arrival.round == round

/-- The replies to a round that arrive in some turns, in order. -/
def repliesTo (round : RoundId) (turns : List Turn) : List Arrival :=
  ofRound round (turns.filterMap Turn.arrival?)

theorem ofRound_append (round : RoundId) (arrivals more : List Arrival) :
    ofRound round (arrivals ++ more) = ofRound round arrivals ++ ofRound round more :=
  List.filter_append ..

theorem repliesTo_append (round : RoundId) (turns more : List Turn) :
    repliesTo round (turns ++ more) = repliesTo round turns ++ repliesTo round more := by
  rw [repliesTo, List.filterMap_append, ofRound_append]
  rfl

theorem repliesTo_arrives {round : RoundId} {arrival : Arrival} (h : arrival.round = round)
    (turns : List Turn) :
    repliesTo round (.arrives arrival :: turns) = arrival :: repliesTo round turns := by
  have hsome : (Turn.arrives arrival).arrival? = some arrival := rfl
  rw [repliesTo, List.filterMap_cons_some hsome, ofRound,
    List.filter_cons_of_pos (by simpa using h)]
  rfl

namespace Session

def turn (session : Session) : Turn → Session
  | .arrives arrival => session.deliver arrival
  | .nextUpdate => session.nextUpdate?.getD session
  | .poll => session.poll.1

def follow (session : Session) (turns : List Turn) : Session := turns.foldl turn session

/-- The session after some replies were applied, one after the other. -/
def applyEach (session : Session) (arrivals : List Arrival) : Session :=
  arrivals.foldl apply session

variable {session : Session}

/-! ## Some replies -/

theorem applyEach_append (session : Session) (arrivals more : List Arrival) :
    session.applyEach (arrivals ++ more) = (session.applyEach arrivals).applyEach more :=
  List.foldl_append

theorem applyEach_withInbox (session : Session) (arrivals inbox : List Arrival) :
    (session.withInbox inbox).applyEach arrivals =
      (session.applyEach arrivals).withInbox inbox := by
  induction arrivals generalizing session with
  | nil => rfl
  | cons arrival rest ih =>
    change ((session.withInbox inbox).apply arrival).applyEach rest = _
    rw [withInbox_apply]
    exact ih (session.apply arrival)

theorem keeps_applyEach (session : Session) (arrivals : List Arrival) :
    Keeps session (session.applyEach arrivals) := by
  induction arrivals generalizing session with
  | nil => exact .refl session
  | cons arrival rest ih => exact (keeps_apply session arrival).trans (ih _)

theorem statuses_applyEach (session : Session) (arrivals : List Arrival) :
    (session.applyEach arrivals).statuses = arrivals.foldl boardAfter session.statuses := by
  induction arrivals generalizing session with
  | nil => rfl
  | cons arrival rest ih =>
    rw [List.foldl_cons, ← statuses_apply]
    exact ih (session.apply arrival)

/-- The items of an answer are queued, and merged or not. -/
theorem viewWith_eq_or (view : View) (asked : String) (items : List Answer.Item) :
    viewWith view asked items = (view.enqueue asked items).merge ∨
      viewWith view asked items = view.enqueue asked items := by
  rw [viewWith]
  split
  · exact .inl rfl
  · exact .inr rfl

/-- The view after a reply was taken in. -/
def viewAfter (view : View) (arrival : Arrival) : View :=
  match arrival.reply with
  | .ok answer => viewWith view (arrival.request.sources.head?.getD "") answer.items
  | .error _ => view

/-- Counting touches neither the view nor whether anything was searched. -/
theorem view_searched_countDown (session : Session) (id : RoundId) :
    (session.countDown id).view = session.view ∧
      (session.countDown id).searched = session.searched := by
  unfold countDown
  cases session.round with
  | none => exact ⟨rfl, rfl⟩
  | some round =>
    dsimp only
    split <;> exact ⟨rfl, rfl⟩

theorem view_apply (session : Session) (arrival : Arrival) :
    (session.apply arrival).view = session.view.map (viewAfter · arrival) := by
  rw [apply_eq, (view_searched_countDown _ _).1, record_eq]
  obtain ⟨request, failure | answer⟩ := arrival
  · exact Option.map_id.symm ▸ rfl
  · rfl

theorem searched_apply (session : Session) (arrival : Arrival) :
    (session.apply arrival).searched = session.searched := by
  rw [apply_eq, (view_searched_countDown _ _).2, record_eq]

theorem view_applyEach (session : Session) (arrivals : List Arrival) :
    (session.applyEach arrivals).view =
      session.view.map fun view => arrivals.foldl viewAfter view := by
  induction arrivals generalizing session with
  | nil => exact Option.map_id'.symm
  | cons arrival rest ih =>
    change ((session.apply arrival).applyEach rest).view = _
    rw [ih, view_apply, Option.map_map]
    rfl

theorem searched_applyEach (session : Session) (arrivals : List Arrival) :
    (session.applyEach arrivals).searched = session.searched := by
  induction arrivals generalizing session with
  | nil => rfl
  | cons arrival rest ih => exact (ih _).trans (searched_apply session arrival)

theorem round_apply_of_over (h : session.round = none) (arrival : Arrival) :
    (session.apply arrival).round = none := by
  have hrecord : (session.record arrival).round = none := by rw [record_eq]; exact h
  rw [apply_eq, countDown, hrecord]
  exact hrecord

theorem round_applyEach_of_over (h : session.round = none) (arrivals : List Arrival) :
    (session.applyEach arrivals).round = none := by
  induction arrivals generalizing session with
  | nil => exact h
  | cons arrival rest ih => exact ih (round_apply_of_over h arrival)

/-- A round is over once as many replies were applied as it waits for, and not before. -/
theorem round_applyEach {id : RoundId} {outstanding : Nat}
    (h : session.round = some ⟨id, outstanding⟩) (hpos : 0 < outstanding)
    (arrivals : List Arrival) :
    (session.applyEach arrivals).round =
      if arrivals.length < outstanding then some ⟨id, outstanding - arrivals.length⟩
      else none := by
  induction arrivals generalizing session outstanding with
  | nil => rw [List.length_nil, if_pos hpos]; exact h
  | cons arrival rest ih =>
    have happly := round_apply h arrival
    rw [List.length_cons]
    split at happly
    · rename_i hlast
      rw [if_neg (by dsimp only at hlast; omega)]
      exact round_applyEach_of_over happly rest
    · rename_i hmore
      have hpos' : 0 < outstanding - 1 := by dsimp only at hmore; omega
      change ((session.apply arrival).applyEach rest).round = _
      rw [ih happly hpos']
      have hlt : rest.length < outstanding - 1 ↔ rest.length + 1 < outstanding := by omega
      simp only [hlt, Nat.sub_sub, Nat.add_comm 1]

/-- The last thing that is told of a round is that it is settled. -/
theorem getLast?_log_applyEach {id : RoundId} {outstanding : Nat} {arrivals : List Arrival}
    (h : session.round = some ⟨id, outstanding⟩) (hpos : 0 < outstanding)
    (hcount : arrivals.length = outstanding) (hof : ∀ arrival ∈ arrivals, arrival.round = id) :
    (session.applyEach arrivals).log.toList.getLast? = some (.settled id) := by
  induction arrivals generalizing session outstanding with
  | nil =>
    rw [List.length_nil] at hcount
    omega
  | cons arrival rest ih =>
    obtain ⟨harrival, hrest⟩ := List.forall_mem_cons.1 hof
    rw [List.length_cons] at hcount
    have happly := round_apply h arrival
    change ((session.apply arrival).applyEach rest).log.toList.getLast? = _
    dsimp only at happly
    by_cases hlast : outstanding ≤ 1
    · have hnone : rest = [] := List.length_eq_zero_iff.1 (by omega)
      rw [hnone, applyEach, List.foldl_nil, toList_log_apply h arrival, if_pos hlast,
        List.getLast?_append, harrival]
      rfl
    · rw [if_neg hlast] at happly
      exact ih happly (by omega) (by omega) hrest

/-! ## Turns -/

theorem ofRound_takeArrival? {id : RoundId} {arrival : Arrival} {inbox rest : List Arrival}
    (h : takeArrival? id inbox = some (arrival, rest)) :
    ofRound id inbox = arrival :: ofRound id rest := by
  induction inbox with
  | nil => cases h
  | cons first others ih =>
    rw [takeArrival?] at h
    split at h
    · rename_i hid
      cases h
      exact List.filter_cons_of_pos (by simpa using hid)
    · rename_i hid
      rw [← ih h]
      exact List.filter_cons_of_neg (by simpa using hid)

/-- Any running round is the one of a given number. -/
def RunsOnly (session : Session) (id : RoundId) : Prop :=
  ∀ running, session.round = some running → running.id = id

theorem RunsOnly.apply {id : RoundId} (h : session.RunsOnly id) (arrival : Arrival) :
    (session.apply arrival).RunsOnly id := by
  intro later hlater
  cases hround : session.round with
  | none =>
    rw [round_apply_of_over hround] at hlater
    cases hlater
  | some running =>
    obtain ⟨-, rfl⟩ := of_round_apply hround hlater
    exact h running hround

theorem RunsOnly.applyEach {id : RoundId} (h : session.RunsOnly id) (arrivals : List Arrival) :
    (session.applyEach arrivals).RunsOnly id := by
  induction arrivals generalizing session with
  | nil => exact h
  | cons arrival rest ih => exact ih (h.apply arrival)

/-- Polling applies replies to the running round up to some point, and leaves the rest. -/
theorem applyAll_eq {id : RoundId} (h : session.RunsOnly id) (arrivals : List Arrival) :
    ∃ applied rest, ofRound id arrivals = applied ++ ofRound id rest ∧
      (session.applyAll arrivals).1 = (session.applyEach applied).withInbox rest := by
  induction arrivals generalizing session with
  | nil => exact ⟨[], [], rfl, rfl⟩
  | cons arrival others ih =>
    cases hround : session.round with
    | none =>
      rw [applyAll_of_over session hround]
      exact ⟨[], arrival :: others, rfl, rfl⟩
    | some running =>
      have hid := h running hround
      cases hcurrent : Traffic.isCurrent session arrival with
      | true =>
        obtain ⟨applied, rest, hof, hafter⟩ := ih (h.apply arrival)
        obtain ⟨_, hsame, hof'⟩ := isCurrent_iff.1 hcurrent
        obtain rfl := Option.some.inj (hround.symm.trans hsame)
        refine ⟨arrival :: applied, rest, ?_, ?_⟩
        · rw [List.cons_append, ← hof]
          exact List.filter_cons_of_pos (by simp [hof', hid])
        · rw [applyAll_of_current session hcurrent, hafter]
          rfl
      | false =>
        -- The reply is dropped; it is of another round, so it is none of those counted here.
        obtain ⟨applied, rest, hof, hafter⟩ := ih h
        refine ⟨applied, rest, ?_, ?_⟩
        · rw [← hof]
          refine List.filter_cons_of_neg fun hmem => ?_
          have hcurrent' : Traffic.isCurrent session arrival = true :=
            isCurrent_iff.2 ⟨running, hround, (eq_of_beq hmem).trans hid.symm⟩
          exact absurd (hcurrent.symm.trans hcurrent') Bool.false_ne_true
        · rw [applyAll_of_stale session hround hcurrent, hafter]

/-- A turn applies some of the replies that wait, and leaves the rest of them. -/
theorem turn_eq {id : RoundId} (h : session.RunsOnly id) (turn : Turn) :
    ∃ applied rest,
      ofRound id (session.inbox ++ turn.arrival?.toList) = applied ++ ofRound id rest ∧
        session.turn turn = (session.applyEach applied).withInbox rest := by
  cases turn with
  | arrives arrival => exact ⟨[], session.inbox ++ [arrival], rfl, rfl⟩
  | nextUpdate =>
    have hinbox : session.inbox ++ (Turn.nextUpdate.arrival?).toList = session.inbox :=
      List.append_nil _
    rw [hinbox, turn]
    cases hround : session.round with
    | none =>
      have hnone : session.nextUpdate? = none := by
        rw [nextUpdate?, hround]
        rfl
      rw [hnone]
      exact ⟨[], session.inbox, rfl, rfl⟩
    | some running =>
      rw [nextUpdate?_eq hround, h running hround]
      cases htaken : takeArrival? id session.inbox with
      | none => exact ⟨[], session.inbox, rfl, rfl⟩
      | some taken =>
        refine ⟨[taken.1], taken.2, ofRound_takeArrival? htaken, ?_⟩
        exact withInbox_apply session taken.1 taken.2
  | poll =>
    obtain ⟨applied, rest, hof, hafter⟩ := applyAll_eq h session.inbox
    have hinbox : session.inbox ++ (Turn.poll.arrival?).toList = session.inbox :=
      List.append_nil _
    rw [hinbox]
    exact ⟨applied, rest, hof, hafter⟩

/-- Turns apply the replies to the running round in the order of their arrival. -/
theorem follow_eq {id : RoundId} (h : session.RunsOnly id) (turns : List Turn) :
    ∃ applied rest,
      ofRound id session.inbox ++ repliesTo id turns = applied ++ ofRound id rest ∧
        session.follow turns = (session.applyEach applied).withInbox rest := by
  induction turns generalizing session with
  | nil => exact ⟨[], session.inbox, List.append_nil _, rfl⟩
  | cons turn turns ih =>
    obtain ⟨applied, rest, hof, hturn⟩ := turn_eq h turn
    have hnext : (session.turn turn).RunsOnly id := by
      rw [hturn]
      exact h.applyEach applied
    obtain ⟨later, rest', hof', hfollow⟩ := ih hnext
    have hinbox : (session.turn turn).inbox = rest := by rw [hturn]; rfl
    refine ⟨applied ++ later, rest', ?_, ?_⟩
    · have hsplit : repliesTo id (turn :: turns) =
          ofRound id turn.arrival?.toList ++ repliesTo id turns := by
        rw [← List.singleton_append, repliesTo_append]
        cases turn <;> rfl
      rw [hsplit, ← List.append_assoc, ← ofRound_append, hof, List.append_assoc, ← hinbox, hof',
        List.append_assoc]
    · change (session.turn turn).follow turns = _
      rw [hfollow, hturn, applyEach_withInbox, applyEach_append]
      rfl

/-- The session after some turns and a last look at what has arrived. -/
def drained (session : Session) (turns : List Turn) : Session := (session.follow turns).poll.1

/-- Once all replies to a round were pulled, each of them was applied, in the order of
their arrival. -/
theorem drained_eq {id : RoundId} {outstanding : Nat} {turns : List Turn}
    (h : session.round = some ⟨id, outstanding⟩) (hpos : 0 < outstanding)
    (hinbox : session.inbox = []) (hcount : (repliesTo id turns).length = outstanding) :
    ∃ rest, session.drained turns = (session.applyEach (repliesTo id turns)).withInbox rest := by
  have hruns : session.RunsOnly id := by
    intro running hrunning
    rw [h] at hrunning
    rw [← Option.some.inj hrunning]
  obtain ⟨applied, rest, hof, hfollow⟩ := follow_eq hruns (turns ++ [.poll])
  have hreplies : repliesTo id (turns ++ [.poll]) = repliesTo id turns :=
    (repliesTo_append id turns [.poll]).trans (List.append_nil _)
  have hdrained : session.drained turns = (session.applyEach applied).withInbox rest := by
    rw [← hfollow, follow, List.foldl_append]
    rfl
  rw [hinbox, hreplies] at hof
  change repliesTo id turns = applied ++ ofRound id rest at hof
  -- Polling leaves replies in the inbox only if the round is over, and then it had them all.
  have hnone : ofRound id rest = [] := by
    obtain hover | hempty :=
      applyAll_over_or_nil (session.follow turns) (session.follow turns).inbox
    · change (session.drained turns).round = none at hover
      rw [hdrained] at hover
      have hround := round_applyEach h hpos applied
      rw [show (session.applyEach applied).round = none from hover] at hround
      split at hround
      · cases hround
      · rename_i hlength
        have hsum := congrArg List.length hof
        rw [List.length_append, hcount] at hsum
        exact List.length_eq_zero_iff.1 (by omega)
    · change (session.drained turns).inbox = [] at hempty
      rw [hdrained] at hempty
      rw [show rest = [] from hempty]
      rfl
  rw [hnone, List.append_nil] at hof
  exact ⟨rest, hof ▸ hdrained⟩

/-- What comes of a round once all replies to it were pulled. -/
structure Concludes (session after : Session) (id : RoundId) (replies : List Arrival) :
    Prop where
  keeps : Keeps session after
  statuses : after.statuses = replies.foldl boardAfter session.statuses
  view : after.view = session.view.map fun view => replies.foldl viewAfter view
  state : after.state = .settled
  told : after.log.toList.getLast? = some (.settled id)

/-- A round that was sent comes to its end, whatever the turns are in which the replies to
its requests are pulled. -/
theorem concludes_drained {before : Session} {options : SearchOptions} {id : RoundId}
    {requests : List Request} {turns : List Turn}
    (hsent : before.start options = (.ok (.dispatched id requests), session))
    (hanswers : ((repliesTo id turns).map Arrival.request).Perm requests) :
    Concludes session (session.drained turns) id (repliesTo id turns) := by
  obtain ⟨-, -, hne, rfl, rfl⟩ := start_eq_dispatched_iff.1 hsent
  have hround : (before.sendRound options requests).round =
      some ⟨before.rounds + 1, requests.length⟩ := rfl
  have hpos : 0 < requests.length := List.length_pos_iff.2 hne
  have hcount : (repliesTo (before.rounds + 1) turns).length = requests.length := by
    rw [← hanswers.length_eq, List.length_map]
  have hof : ∀ arrival ∈ repliesTo (before.rounds + 1) turns,
      arrival.round = before.rounds + 1 :=
    fun arrival harrival => eq_of_beq (List.mem_filter.1 harrival).2
  obtain ⟨rest, hdrained⟩ := drained_eq hround hpos rfl hcount
  have hover := round_applyEach hround hpos (repliesTo (before.rounds + 1) turns)
  rw [hcount, if_neg (Nat.lt_irrefl _)] at hover
  have hkeeps := keeps_applyEach (before.sendRound options requests)
    (repliesTo (before.rounds + 1) turns)
  rw [hdrained]
  refine ⟨⟨hkeeps.query, hkeeps.surroundings, hkeeps.tracker⟩, statuses_applyEach _ _,
    view_applyEach _ _, ?_, getLast?_log_applyEach hround hpos hcount hof⟩
  have hsearched : (before.sendRound options requests).searched = true := rfl
  rw [← searched_applyEach _ (repliesTo (before.rounds + 1) turns)] at hsearched
  simp only [state, withInbox, hover, hsearched, Option.isSome_none, Bool.false_eq_true,
    if_false, if_true]

end Session

end CatalogSearch
