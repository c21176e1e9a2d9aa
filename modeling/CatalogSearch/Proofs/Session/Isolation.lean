import CatalogSearch.Proofs.Session.Ledger

/-!
# Rounds do not mix

A reply is applied only while the round of its request runs.  A reply that was not
applied when its round was given up is lost, and everything goes on as if it had
never come: what is left out of a run in this way changes nothing but the inbox.
-/

namespace CatalogSearch

namespace Session

/-- What is run does not look into the inbox, which it keeps or empties. -/
def IgnoresInbox (run : Session → Session × List Request) (session : Session) : Prop :=
  ∃ left : List Arrival → List Arrival, (left = id ∨ left = fun _ => []) ∧
    ∀ inbox, run (session.withInbox inbox) =
      ((run session).1.withInbox (left inbox), (run session).2)

theorem dispatch_withInbox {session : Session} (h : session.inbox = []) (options : SearchOptions) :
    (session.dispatch options).2 = (session.dispatch options).2.withInbox [] := by
  have hinbox : (session.dispatch options).2.inbox = [] := by
    by_cases hrequests : (session.prepare options).nextRequests options = []
    · rw [dispatch_of_nextRequests_nil hrequests]
      exact h
    · rw [dispatch_of_nextRequests_ne_nil hrequests]
      exact h
  rw [← hinbox]
  rfl

theorem ignoresInbox_start (session : Session) (options : SearchOptions) :
    IgnoresInbox (fun session => sending (session.start options)) session := by
  by_cases hempty : session.query.filter.isEmpty
  · refine ⟨id, .inl rfl, fun inbox => ?_⟩
    have hempty' : (session.withInbox inbox).query.filter.isEmpty := hempty
    simp only [start_eq, hempty, hempty', if_true]
    rfl
  by_cases hzero : session.surroundings.pageSize = 0 && !options.countOnly
  · refine ⟨id, .inl rfl, fun inbox => ?_⟩
    have hempty' : ¬(session.withInbox inbox).query.filter.isEmpty := hempty
    have hzero' : (session.withInbox inbox).surroundings.pageSize = 0 && !options.countOnly :=
      hzero
    simp only [start_eq, hempty, hempty', hzero, hzero', if_true]
    rfl
  · refine ⟨fun _ => [], .inr rfl, fun inbox => ?_⟩
    have hcancel : (session.withInbox inbox).refreshed.cancel = session.refreshed.cancel :=
      cancel_withInbox session.refreshed inbox
    have hempty' : ¬(session.withInbox inbox).query.filter.isEmpty := hempty
    have hzero' : ¬((session.withInbox inbox).surroundings.pageSize = 0 && !options.countOnly) :=
      hzero
    change sending ((session.withInbox inbox).start options) =
      ((sending (session.start options)).1.withInbox [], (sending (session.start options)).2)
    rw [start_eq, start_eq, if_neg hempty, if_neg hempty', if_neg hzero, if_neg hzero', hcancel]
    exact congrArg (·, _) (dispatch_withInbox (inbox_cancel session.refreshed) options)

theorem IgnoresInbox.of_keeps {run : Session → Session × List Request} {session : Session}
    (h : ∀ inbox, run (session.withInbox inbox) =
      ((run session).1.withInbox inbox, (run session).2)) : IgnoresInbox run session :=
  ⟨id, .inl rfl, h⟩

theorem ignoresInbox_widen (session : Session) (wanted : List String) (found : SearchOutcome) :
    IgnoresInbox (fun session => sendingTiered (session.widen wanted found)) session := by
  cases hview : session.view with
  | none =>
    refine .of_keeps fun inbox => ?_
    have hview' : (session.withInbox inbox).view = none := hview
    simp only [widen_eq, hview, hview']
    rfl
  | some view =>
    by_cases hfound : wanted.all (settledView view).contains
    · refine .of_keeps fun inbox => ?_
      have hview' : (session.withInbox inbox).view = some view := hview
      simp only [widen_eq, hview, hview', hfound, if_true]
      rfl
    · obtain ⟨left, hleft, hrun⟩ := ignoresInbox_start
        { session with
          view := some (settledView view)
          query := { session.query with federation := .enterprise } }
        { seedResults := (settledView view).records, seedStatuses := session.statuses }
      refine ⟨left, hleft, fun inbox => ?_⟩
      have hview' : (session.withInbox inbox).view = some view := hview
      simp only [widen_eq, hview, hview', hfound, Bool.false_eq_true, if_false,
        sendingTiered_wider]
      exact hrun inbox

end Session

/-- An operation that does not pull does not look into the inbox. -/
theorem Operation.ignoresInbox (session : Session) {operation : Operation}
    (h : operation.pulls = false) :
    Session.IgnoresInbox (fun session => operation.run session) session := by
  cases operation with
  | start options => exact Session.ignoresInbox_start session options
  | startFromFirstPage options =>
    exact Session.ignoresInbox_start { session with tracker := .fresh } options
  | startIfOutdated =>
    cases houtdated : session.query.outdated with
    | true =>
      obtain ⟨left, hleft, hrun⟩ := Session.ignoresInbox_start session {}
      refine ⟨left, hleft, fun inbox => ?_⟩
      have houtdated' : (session.withInbox inbox).query.outdated = true := houtdated
      simp only [run_startIfOutdated, houtdated, houtdated', if_true]
      exact hrun inbox
    | false =>
      refine .of_keeps fun inbox => ?_
      have houtdated' : (session.withInbox inbox).query.outdated = false := houtdated
      simp only [run_startIfOutdated, houtdated, houtdated']
      rfl
  | nextPage =>
    exact Session.ignoresInbox_start { session with
      tracker := session.tracker.advance session.selectedSources session.registry
        session.statuses } {}
  | previousPage =>
    cases hretreat : session.tracker.retreat? with
    | none =>
      refine .of_keeps fun inbox => ?_
      have hretreat' : (session.withInbox inbox).tracker.retreat? = none := hretreat
      simp only [run, Session.previousPage, hretreat, hretreat']
      rfl
    | some tracker =>
      obtain ⟨left, hleft, hrun⟩ := Session.ignoresInbox_start { session with tracker } {}
      refine ⟨left, hleft, fun inbox => ?_⟩
      have hretreat' : (session.withInbox inbox).tracker.retreat? = some tracker := hretreat
      simp only [run, Session.previousPage, hretreat, hretreat']
      exact hrun inbox
  | startLocal =>
    exact Session.ignoresInbox_start { session with
      query := { session.query with federation := .localCatalog } } {}
  | widen wanted found =>
    cases hround : session.round with
    | none =>
      obtain ⟨left, hleft, hrun⟩ := Session.ignoresInbox_widen session wanted found
      refine ⟨left, hleft, fun inbox => ?_⟩
      have hround' : (session.withInbox inbox).round = none := hround
      simp only [run, hround, hround']
      exact hrun inbox
    | some round =>
      refine .of_keeps fun inbox => ?_
      have hround' : (session.withInbox inbox).round = some round := hround
      simp only [run, hround, hround']
      rfl
  | cancel =>
    refine ⟨fun _ => [], .inr rfl, fun inbox => ?_⟩
    exact congrArg (·, []) (Session.cancel_withInbox session inbox)
  | clearResults =>
    refine ⟨fun _ => [], .inr rfl, fun inbox => ?_⟩
    simp only [run, Session.clearResults, Session.cancel_withInbox]
    rfl
  | setFilter | setSorts | setFederation | setSources | setSourcesFromRegistry
  | preferencesChanged | setPageSize | setHook | setAutoMerge =>
    exact .of_keeps fun inbox => rfl
  | mergeResults =>
    refine .of_keeps fun inbox => ?_
    obtain ⟨query, surroundings, tracker, statuses, view⟩ := session
    cases view <;> rfl
  | nextUpdate | poll => contradiction

/-- Whether an action is a reply to one of some requests. -/
def Action.repliesTo (lost : Nat → Bool) : Action → Bool
  | operate _ => false
  | answer call _ => lost call

namespace Traffic

variable {traffic : Traffic} {lost : Nat → Bool}

/-! ## Leaving replies out -/

/-- The traffic as if some requests had not been answered so far. -/
def without (traffic : Traffic) (lost : Nat → Bool) : Traffic :=
  { traffic with
    session := traffic.session.withInbox
      ((traffic.queue.filter fun entry => !lost entry.1).map Prod.snd)
    answered := traffic.answered.filter fun call => !lost call
    queue := traffic.queue.filter fun entry => !lost entry.1 }

/-- The actions but for the replies to some requests. -/
def leaveOut (lost : Nat → Bool) (actions : List Action) : List Action :=
  actions.filter fun action => !action.repliesTo lost

theorem inStep_without (traffic : Traffic) (lost : Nat → Bool) :
    (traffic.without lost).InStep := rfl

theorem operate_without_of_not_pulls (hstep : traffic.InStep) {operation : Operation}
    (hpulls : operation.pulls = false) :
    (traffic.operate operation).without lost = (traffic.without lost).operate operation := by
  obtain ⟨left, hleft, hrun⟩ := Operation.ignoresInbox traffic.session hpulls
  have hself : operation.run traffic.session =
      ((operation.run traffic.session).1.withInbox (left traffic.session.inbox),
        (operation.run traffic.session).2) := hrun traffic.session.inbox
  have hwithout : operation.run (traffic.without lost).session =
      ((operation.run traffic.session).1.withInbox (left (traffic.without lost).session.inbox),
        (operation.run traffic.session).2) := hrun _
  have hinbox : (operation.run traffic.session).1.inbox = left traffic.session.inbox :=
    congrArg (fun result => result.1.inbox) hself
  have hinbox' : (operation.run (traffic.without lost).session).1.inbox =
      left (traffic.without lost).session.inbox :=
    congrArg (fun result => result.1.inbox) hwithout
  obtain rfl | rfl := hleft
  · rw [operate_of_inbox_eq hpulls hinbox, operate_of_inbox_eq hpulls hinbox', hwithout]
    rfl
  · rw [operate_of_inbox_nil hstep hpulls hinbox,
      operate_of_inbox_nil (inStep_without traffic lost) hpulls hinbox', hwithout]
    rfl

/-- Pulling comes to the same without replies that it does not apply. -/
theorem operate_without_of_pulls (hstep : traffic.InStep) {operation : Operation}
    (hpulls : operation.pulls = true)
    (hkept : ∀ call ∈ traffic.applies operation, lost call = false) :
    (traffic.operate operation).without lost = (traffic.without lost).operate operation := by
  obtain ⟨front, rest, after, hpull, happlies, hoperate⟩ := operate_of_pulls hstep hpulls
  have hcurrent : ∀ entry ∈ front, isCurrent traffic.session entry.2 = true →
      (!lost entry.1) = true := by
    intro entry hentry hcurrent
    have hmem : entry.1 ∈ traffic.applies operation := by
      rw [happlies]
      exact List.mem_map_of_mem (List.mem_filter.2 ⟨hentry, hcurrent⟩)
    rw [hkept entry.1 hmem]
    rfl
  have hsplit : (traffic.without lost).queue =
      (front.filter fun entry => !lost entry.1) ++ rest.filter fun entry => !lost entry.1 := by
    rw [← List.filter_append, ← hpull.split]
    rfl
  have hrun : (operation.run (traffic.without lost).session).1 =
      after.withInbox ((rest.filter fun entry => !lost entry.1).map Prod.snd) :=
    hpull.pull_eq (fun call => !lost call) hcurrent
  obtain ⟨happlies', hoperate'⟩ :=
    operate_of_split (inStep_without traffic lost) hpulls hsplit hrun
  -- of the replies in front, those that are left out are not current
  have hsame : (traffic.without lost).applies operation = traffic.applies operation := by
    rw [happlies, happlies', List.filter_filter]
    congr 1
    apply List.filter_congr
    intro entry hentry
    change (isCurrent traffic.session entry.2 && !lost entry.1) = _
    cases h : isCurrent traffic.session entry.2 with
    | true => rw [hcurrent entry hentry h]; rfl
    | false => rfl
  rw [hoperate, hoperate', hsame]
  rfl

theorem operate_without (hstep : traffic.InStep) (operation : Operation)
    (hkept : ∀ call ∈ traffic.applies operation, lost call = false) :
    (traffic.operate operation).without lost = (traffic.without lost).operate operation := by
  cases hpulls : operation.pulls with
  | false => exact operate_without_of_not_pulls hstep hpulls
  | true => exact operate_without_of_pulls hstep hpulls hkept

theorem answer_without_of_lost {call : Nat} (h : lost call = true) (reply : Reply) :
    (traffic.answer call reply).without lost = traffic.without lost := by
  unfold answer
  split
  · rfl
  · split
    · rfl
    · simp [without, h, Session.deliver, Session.withInbox]

theorem answer_without_of_kept {call : Nat} (h : lost call = false) (reply : Reply) :
    (traffic.answer call reply).without lost = (traffic.without lost).answer call reply := by
  cases hcall : traffic.sent[call]? with
  | none =>
    have hcall' : (traffic.without lost).sent[call]? = none := hcall
    simp only [answer, hcall, hcall']
  | some request =>
    have hcall' : (traffic.without lost).sent[call]? = some request := hcall
    have hanswered : call ∈ (traffic.without lost).answered ↔ call ∈ traffic.answered := by
      change call ∈ traffic.answered.filter _ ↔ _
      simp [h]
    simp only [answer, hcall, hcall', hanswered]
    split
    · rfl
    · simp [without, h, Session.deliver, Session.withInbox]

theorem act_without (hstep : traffic.InStep) (action : Action)
    (hkept : ∀ call ∈ (traffic.act action).applied, lost call = false) :
    (traffic.act action).without lost = (traffic.without lost).run (leaveOut lost [action]) := by
  cases action with
  | operate operation =>
    exact operate_without hstep operation fun call hcall =>
      hkept call (List.mem_append_right _ hcall)
  | answer call reply =>
    cases h : lost call with
    | true =>
      have hout : leaveOut lost [.answer call reply] = [] := by
        simp [leaveOut, Action.repliesTo, h]
      rw [hout]
      exact answer_without_of_lost h reply
    | false =>
      have hout : leaveOut lost [.answer call reply] = [.answer call reply] := by
        simp [leaveOut, Action.repliesTo, h]
      rw [hout]
      exact answer_without_of_kept h reply

/-! ## What is applied stays applied -/

theorem applied_subset_act (traffic : Traffic) (action : Action) :
    traffic.applied ⊆ (traffic.act action).applied := by
  intro call hcall
  cases action with
  | operate operation => exact List.mem_append_left _ hcall
  | answer other reply =>
    simp only [act, answer]
    split
    · exact hcall
    · split <;> exact hcall

theorem applied_subset_run (traffic : Traffic) (actions : List Action) :
    traffic.applied ⊆ (traffic.run actions).applied := by
  induction actions generalizing traffic with
  | nil => exact fun _ hcall => hcall
  | cons action actions ih =>
    exact fun _ hcall => ih (traffic.act action) (applied_subset_act traffic action hcall)

theorem run_append (traffic : Traffic) (earlier later : List Action) :
    traffic.run (earlier ++ later) = (traffic.run earlier).run later := List.foldl_append

/-- Replies that are never applied can be left out of a run from the start. -/
theorem run_without (hc : Coherent traffic) (actions : List Action)
    (hkept : ∀ call ∈ (traffic.run actions).applied, lost call = false) :
    (traffic.run actions).without lost =
      (traffic.without lost).run (leaveOut lost actions) := by
  induction actions generalizing traffic with
  | nil => rfl
  | cons action actions ih =>
    have hact : ∀ call ∈ (traffic.act action).applied, lost call = false := fun call hcall =>
      hkept call (applied_subset_run (traffic.act action) actions hcall)
    have hout : leaveOut lost (action :: actions) =
        leaveOut lost [action] ++ leaveOut lost actions :=
      List.filter_append [action] actions
    calc ((traffic.act action).run actions).without lost
        = ((traffic.act action).without lost).run (leaveOut lost actions) :=
          ih (hc.act action) hkept
      _ = ((traffic.without lost).run (leaveOut lost [action])).run (leaveOut lost actions) := by
          rw [act_without hc.inStep action hact]
      _ = (traffic.without lost).run (leaveOut lost (action :: actions)) := by
          rw [hout, run_append]

/-! ## Lost replies -/

/-- Whether a request was sent in a round that is over, and no reply to it was applied
before. -/
def isLost (traffic : Traffic) (call : Nat) : Bool :=
  traffic.sent[call]?.any fun request =>
    !traffic.applied.contains call &&
      traffic.session.round.all fun running => request.round != running.id

theorem isLost_eq_true_iff {call : Nat} :
    traffic.isLost call = true ↔
      ∃ request, traffic.sent[call]? = some request ∧ call ∉ traffic.applied ∧
        ∀ running, traffic.session.round = some running → request.round ≠ running.id := by
  simp [isLost, Option.any_eq_true, Option.all_eq_true]

/-- A round that is over does not come back. -/
theorem isLost_of_move {allowed : List Status → Prop} {next : Traffic} (hc : Coherent traffic)
    (hmove : Move allowed traffic next) {call : Nat} (h : traffic.isLost call = true) :
    next.isLost call = true := by
  rw [isLost_eq_true_iff] at h ⊢
  obtain ⟨request, hcall, happlied, hover⟩ := h
  cases hmove with
  | quiet after events hround => exact ⟨request, hcall, happlied, hround ▸ hover⟩
  | ended after events seeds hseeds hround =>
    refine ⟨request, hcall, happlied, fun running hrunning => ?_⟩
    rw [hround] at hrunning
    cases hrunning
  | sent after requests seeds hseeds hrequests hround =>
    have hlt := (List.getElem?_eq_some_iff.1 hcall).1
    refine ⟨request, (List.getElem?_append_left hlt).trans hcall, happlied, ?_⟩
    intro running hrunning hof
    rw [hround, Option.some.injEq] at hrunning
    have hle := (hc.sent_round request (List.mem_of_getElem? hcall)).2
    rw [hof, ← hrunning] at hle
    exact Nat.not_succ_le_self _ hle
  | answered other answered reply hother hnew => exact ⟨request, hcall, happlied, hover⟩
  | dropped entry rest hqueue hcurrent => exact ⟨request, hcall, happlied, hover⟩
  | applied entry rest hqueue hcurrent =>
    obtain ⟨running, hround, hid⟩ := Session.isCurrent_iff.1 hcurrent
    obtain ⟨hentry, -, -⟩ := hc.head_of_queue hqueue
    refine ⟨request, hcall, ?_, fun later hlater => ?_⟩
    · intro hmem
      obtain hold | hlast := List.mem_append.1 hmem
      · exact happlied hold
      · rw [List.mem_singleton.1 hlast, hentry, Option.some.injEq] at hcall
        exact hover running hround (hcall ▸ hid)
    · obtain ⟨-, rfl⟩ := Session.of_round_apply hround hlater
      exact hover running hround

theorem isLost_of_moves {allowed : List Status → Prop} {next : Traffic} (hc : Coherent traffic)
    (hmoves : Moves allowed traffic next) {call : Nat} (h : traffic.isLost call = true) :
    next.isLost call = true := by
  induction hmoves with
  | refl => exact h
  | tail hearlier hmove ih => exact isLost_of_move (hc.moves hearlier) hmove ih

theorem isLost_run (hc : Coherent traffic) (actions : List Action) {call : Nat}
    (h : traffic.isLost call = true) : (traffic.run actions).isLost call = true := by
  induction actions generalizing traffic with
  | nil => exact h
  | cons action actions ih =>
    have hmoves : Moves (fun _ => True) traffic (traffic.act action) :=
      moves_act hc.inStep trivial action fun _ _ => trivial
    exact ih (hc.moves hmoves) (isLost_of_moves hc hmoves h)

/-- What is lost at some time is never applied later. -/
theorem not_isLost_of_mem_applied (hc : Coherent traffic) (later : List Action) {call : Nat}
    (hcall : call ∈ (traffic.run later).applied) : traffic.isLost call = false := by
  rw [Bool.eq_false_iff]
  intro hlost
  obtain ⟨-, -, happlied, -⟩ := isLost_eq_true_iff.1 (isLost_run hc later hlost)
  exact happlied hcall

theorem leaveOut_append (lost : Nat → Bool) (earlier later : List Action) :
    leaveOut lost (earlier ++ later) = leaveOut lost earlier ++ leaveOut lost later :=
  List.filter_append earlier later

theorem leaveOut_leaveOut (lost : Nat → Bool) (actions : List Action) :
    leaveOut lost (leaveOut lost actions) = leaveOut lost actions := by
  rw [leaveOut, leaveOut, List.filter_filter]
  exact List.filter_congr fun action _ => Bool.and_self _

/-- The replies that were lost in a run can be left out of it. -/
theorem run_leaveOut (hc : Coherent traffic) (hqueue : traffic.queue = [])
    (hanswered : traffic.answered = []) {actions : List Action}
    (hlost : (traffic.run actions).isLost = lost) (later : List Action) :
    (traffic.run (actions ++ later)).without lost =
      (traffic.run (leaveOut lost actions ++ later)).without lost := by
  have hself : traffic.without lost = traffic := by
    obtain ⟨session, sent, answered, queue, applied⟩ := traffic
    subst hqueue hanswered
    have hinbox : session.inbox = [] := hc.inStep
    obtain ⟨query, surroundings, tracker, statuses, view, round, inbox⟩ := session
    subst hinbox
    rfl
  have hkept : ∀ call ∈ ((traffic.run actions).run later).applied, lost call = false :=
    fun call hcall => hlost ▸ not_isLost_of_mem_applied (hc.run actions) later hcall
  have hnow : (traffic.run actions).without lost = traffic.run (leaveOut lost actions) := by
    rw [run_without hc actions, hself]
    exact fun call hcall => hkept call (applied_subset_run _ later hcall)
  -- what counts as lost does not depend on the lost replies
  have hlost' : (traffic.run (leaveOut lost actions)).isLost = lost := by
    rw [← hnow]
    exact hlost
  calc (traffic.run (actions ++ later)).without lost
      = traffic.run (leaveOut lost (actions ++ later)) := by
        rw [run_without hc (actions ++ later), hself]
        rwa [run_append]
    _ = traffic.run (leaveOut lost (leaveOut lost actions ++ later)) := by
        rw [leaveOut_append, leaveOut_append, leaveOut_leaveOut]
    _ = (traffic.run (leaveOut lost actions ++ later)).without lost := by
        rw [run_without hc (leaveOut lost actions ++ later), hself]
        intro call hcall
        rw [run_append] at hcall
        exact hlost' ▸ not_isLost_of_mem_applied (hc.run _) later hcall

/-- Whatever is done and whenever requests are answered, a reply is applied only if it
answers a request of the round that runs at that moment: pulling applies replies one
after the other under that condition, and nothing else looks into the inbox.  So two
runs that differ only in replies that were not applied when their round was given up
agree ever after, on everything but the inbox. -/
theorem round_isolation (query : Query) (surroundings : Surroundings) :
    let first := Traffic.create (Session.create query surroundings)
    (∀ actions, let traffic := first.run actions
      (∀ entry ∈ traffic.queue, traffic.sent[entry.1]? = some entry.2.request) ∧
      ∀ operation : Operation,
        (operation.pulls = true → ∃ after rest,
          Session.Pulled traffic.session traffic.queue after rest (traffic.applies operation) ∧
            traffic.operate operation =
              { traffic with
                session := after.withInbox (rest.map Prod.snd)
                queue := rest
                applied := traffic.applied ++ traffic.applies operation }) ∧
        (operation.pulls = false →
          traffic.applies operation = [] ∧
            Session.IgnoresInbox (fun session => operation.run session) traffic.session)) ∧
    ∀ actions others later : List Action,
      leaveOut (first.run actions).isLost actions = leaveOut (first.run others).isLost others →
        (first.run (actions ++ later)).session.withInbox [] =
            (first.run (others ++ later)).session.withInbox [] ∧
          (first.run (actions ++ later)).sent = (first.run (others ++ later)).sent ∧
          (first.run (actions ++ later)).applied = (first.run (others ++ later)).applied := by
  intro first
  have hfirst : Coherent first := Coherent.create query surroundings
  refine ⟨fun actions => ⟨(hfirst.run actions).queued, fun operation => ⟨?_, ?_⟩⟩, ?_⟩
  · intro hpulls
    obtain ⟨front, rest, after, hpull, happlies, hoperate⟩ :=
      operate_of_pulls (hfirst.run actions).inStep hpulls
    refine ⟨after, rest, ?_, hoperate⟩
    rw [happlies]
    exact hpull.pulled
  · intro hpulls
    exact ⟨applies_of_not_pulls _ hpulls, Operation.ignoresInbox _ hpulls⟩
  · intro actions others later hsame
    have hactions := run_leaveOut hfirst rfl rfl (Eq.refl (first.run actions).isLost) later
    have hothers := run_leaveOut hfirst rfl rfl (Eq.refl (first.run others).isLost) later
    rw [hsame] at hactions
    refine ⟨?_, ?_, ?_⟩
    · exact (congrArg (fun traffic => traffic.session.withInbox []) hactions).trans
        (congrArg (fun traffic => traffic.session.withInbox []) hothers).symm
    · exact (congrArg Traffic.sent hactions).trans (congrArg Traffic.sent hothers).symm
    · exact (congrArg Traffic.applied hactions).trans (congrArg Traffic.applied hothers).symm

/-- A reply that came before its round was superseded, but was not pulled, comes to the
same as one that came long after. -/
theorem late_reply_isolated :
    let first := Traffic.create
      (Session.create (.create "query" "Search") ⟨.create "home" false, 20, 1000, none⟩)
    let start : Action := .operate (.start {})
    let reply : Action := .answer 0 (.ok ⟨[], []⟩)
    let early := [start, reply, start, .operate .poll]
    let late := [start, start, .operate .poll, reply]
    leaveOut (first.run early).isLost early = leaveOut (first.run late).isLost late ∧
      ∀ later, (first.run (early ++ later)).session.withInbox [] =
        (first.run (late ++ later)).session.withInbox [] := by
  intro first start reply early late
  have hsame : leaveOut (first.run early).isLost early =
      leaveOut (first.run late).isLost late := by
    have hstart : ∀ lost, start.repliesTo lost = false := fun _ => rfl
    have hpoll : ∀ lost, (Action.operate .poll).repliesTo lost = false := fun _ => rfl
    have hreply : ∀ lost, reply.repliesTo lost = lost 0 := fun _ => rfl
    have hearly : (first.run early).isLost 0 = true := by decide +kernel
    have hlate : (first.run late).isLost 0 = true := by decide +kernel
    generalize (first.run early).isLost = lostEarly at *
    generalize (first.run late).isLost = lostLate at *
    simp [leaveOut, early, late, hstart, hpoll, hreply, hearly, hlate]
  exact ⟨hsame, fun later => ((round_isolation _ _).2 early late later hsame).1⟩

end Traffic

end CatalogSearch
