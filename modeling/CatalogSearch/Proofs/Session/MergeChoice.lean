import CatalogSearch.Proofs.Session.LastSearch
import CatalogSearch.Proofs.Session.ViewOrder
import Mathlib.Data.List.Induction
import Mathlib.Data.List.Infix

/-!
# Merging on arrival or on demand

Whether the records of a reply are merged as it arrives or left queued is a setting of the
view, and the view is made by the first search and goes with the results.  A choice made
while there is a view holds for as long as the view is there, through any searches; one that
is made without a view is not kept for the view to come, which merges on arrival.
-/

namespace CatalogSearch

/-- A view after a reply was taken in, merged as it arrives or left queued. -/
def View.takeIn (merges : Bool) (view : View) (arrival : Arrival) : View :=
  match arrival.reply with
  | .ok answer =>
    let queued := view.enqueue (arrival.request.sources.head?.getD "") answer.items
    if merges then queued.merge else queued
  | .error _ => view

namespace Session

theorem autoMerge_viewAfter (view : View) (arrival : Arrival) :
    (viewAfter view arrival).autoMerge = view.autoMerge := by
  unfold viewAfter
  split
  · rename_i answer hanswer
    obtain hview | hview := viewWith_eq_or view (arrival.request.sources.head?.getD "") answer.items
      <;> rw [hview] <;> rfl
  · rfl

theorem autoMerge_foldl_viewAfter (view : View) (arrivals : List Arrival) :
    (arrivals.foldl viewAfter view).autoMerge = view.autoMerge :=
  List.foldlRecOn (motive := fun after => View.autoMerge after = view.autoMerge) arrivals _ rfl
    fun after hafter arrival _ => (autoMerge_viewAfter after arrival).trans hafter

theorem foldl_viewAfter_eq_takeIn (view : View) (arrivals : List Arrival) :
    arrivals.foldl viewAfter view = arrivals.foldl (View.takeIn view.autoMerge) view := by
  induction arrivals generalizing view with
  | nil => rfl
  | cons arrival rest ih =>
    have hfirst : viewAfter view arrival = View.takeIn view.autoMerge view arrival := rfl
    rw [List.foldl_cons, List.foldl_cons, ih, autoMerge_viewAfter, hfirst]

/-- Whether replies are merged as they arrive, if there is a view to merge them into. -/
def merging? (session : Session) : Option Bool := session.view.map View.autoMerge

variable {session after : Session}

theorem merging?_of_map {change : View → View} (hview : after.view = session.view.map change)
    (hkeeps : ∀ view, (change view).autoMerge = view.autoMerge) :
    after.merging? = session.merging? := by
  rw [merging?, hview, Option.map_map]
  exact Option.map_congr fun view _ => hkeeps view

theorem autoMerge_settledView (view : View) : (settledView view).autoMerge = view.autoMerge := by
  rw [settledView]
  split <;> rfl

theorem merging?_cancel (session : Session) : session.cancel.merging? = session.merging? :=
  merging?_of_map (view_cancel session) fun _ => rfl

/-- A search that is not refused makes a view if there is none, which merges on arrival. -/
theorem merging?_start (session : Session) (options : SearchOptions) :
    (sending (session.start options)).1.merging? = session.merging? ∨
      (sending (session.start options)).1.merging? = some (session.merging?.getD true) := by
  by_cases hstarts : session.Starts options
  · right
    have hcancel : session.refreshed.cancel.merging? = session.merging? :=
      merging?_cancel session.refreshed
    rw [← hcancel, start_of_starts hstarts, sending, merging?, view_dispatch, merging?]
    cases session.refreshed.cancel.view <;> rfl
  · left
    rw [start_of_not_starts hstarts]
    rfl

theorem exists_runsOnly (session : Session) : ∃ id, session.RunsOnly id := by
  cases hround : session.round with
  | none => exact ⟨0, fun running hrunning => by rw [hround] at hrunning; cases hrunning⟩
  | some round =>
    refine ⟨round.id, fun running hrunning => ?_⟩
    rw [hround] at hrunning
    cases hrunning
    rfl

/-- Pulling applies some of the replies that have arrived, and leaves the rest of them. -/
theorem exists_run_eq_applyEach (session : Session) {operation : Operation}
    (h : operation.pulls = true) :
    ∃ applied rest : List Arrival, applied.Sublist session.inbox ∧
      (operation.run session).1 = (session.applyEach applied).withInbox rest := by
  have hturn (turn : Turn) (hnone : turn.arrival? = none) :
      ∃ applied rest : List Arrival, applied.Sublist session.inbox ∧
        session.turn turn = (session.applyEach applied).withInbox rest := by
    obtain ⟨id, hruns⟩ := session.exists_runsOnly
    obtain ⟨applied, rest, hof, hafter⟩ := turn_eq hruns turn
    rw [hnone, Option.toList_none, List.append_nil] at hof
    have hfront : applied.Sublist (ofRound id session.inbox) :=
      hof ▸ List.sublist_append_left applied _
    exact ⟨applied, rest, hfront.trans List.filter_sublist, hafter⟩
  cases operation with
  | nextUpdate => exact hturn .nextUpdate rfl
  | poll => exact hturn .poll rfl
  | _ => cases h

theorem view_withInbox_applyEach (session : Session) (applied rest : List Arrival) :
    ((session.applyEach applied).withInbox rest).view =
      session.view.map fun view => applied.foldl viewAfter view :=
  view_applyEach session applied

theorem merging?_run_of_pulls (session : Session) {operation : Operation}
    (h : operation.pulls = true) : (operation.run session).1.merging? = session.merging? := by
  obtain ⟨applied, rest, -, hrun⟩ := exists_run_eq_applyEach session h
  rw [hrun]
  exact merging?_of_map (view_withInbox_applyEach session applied rest)
    fun view => autoMerge_foldl_viewAfter view applied

end Session

open Session

namespace Operation

/-- The choice that an operation makes, of merging replies as they arrive or not. -/
def choice? : Operation → Option Bool
  | setAutoMerge merges => some merges
  | _ => none

variable {session : Session}

theorem merging?_of_search? {before : Session} {operation : Operation} {options : SearchOptions}
    (hsearch : operation.search? session = some (before, options)) :
    before.merging? = session.merging? := by
  obtain ⟨-, hview | hview⟩ := view_of_search? hsearch
  · rw [merging?, hview, merging?]
  · exact merging?_of_map hview autoMerge_settledView

theorem merging?_of_choice? {operation : Operation} {merges : Bool}
    (h : operation.choice? = some merges) :
    (operation.run session).1.merging? = session.merging?.map fun _ => merges := by
  cases operation with
  | setAutoMerge =>
    cases h
    have hview : ((setAutoMerge merges).run session).1.view =
        session.view.map fun view => view.setAutoMerge merges := rfl
    rw [merging?, hview, merging?, Option.map_map, Option.map_map]
    rfl
  | _ => cases h

/-- An operation that runs no search, keeps the results and makes no choice leaves it at the
choice that was made. -/
theorem merging?_of_search?_eq_none {operation : Operation}
    (hsearch : operation.search? session = none) (hclear : operation ≠ .clearResults)
    (hchoice : operation.choice? = none) :
    (operation.run session).1.merging? = session.merging? := by
  cases operation with
  | start | startFromFirstPage | startIfOutdated | nextPage | previousPage | startLocal
  | widen =>
    obtain hrun | hrun := run_of_search?_eq_none rfl hsearch <;> rw [hrun]
    exact merging?_of_map rfl autoMerge_settledView
  | cancel => exact merging?_cancel session
  | clearResults => exact absurd rfl hclear
  | setSorts sorts =>
    have hsort (view : View) : (view.setSorts sorts).autoMerge = view.autoMerge := rfl
    exact merging?_of_map rfl hsort
  | setFilter | setFederation | setSources | setSourcesFromRegistry | preferencesChanged
  | setPageSize | setHook => rfl
  | setAutoMerge => cases hchoice
  | mergeResults =>
    have hmerge (view : View) : view.merge.autoMerge = view.autoMerge := rfl
    rw [run, Session.mergeResults]
    split
    · rfl
    · rename_i view hview
      exact merging?_of_map (hview ▸ rfl) hmerge
  | nextUpdate | poll => exact merging?_run_of_pulls session rfl

/-- An operation that keeps the results changes how the view merges by its choice only, or it
makes the view, which merges on arrival. -/
theorem merging?_run (session : Session) {operation : Operation}
    (hclear : operation ≠ .clearResults) :
    (operation.run session).1.merging? = session.merging?.map operation.choice?.getD ∨
      session.merging? = none ∧ (operation.run session).1.merging? = some true := by
  cases hchoice : operation.choice? with
  | some merges => exact .inl (merging?_of_choice? hchoice)
  | none =>
    have hkeeps : session.merging?.map (none : Option Bool).getD = session.merging? :=
      Option.map_id'
    rw [hkeeps]
    cases hsearch : operation.search? session with
    | none => exact .inl (merging?_of_search?_eq_none hsearch hclear hchoice)
    | some search =>
      rw [run_of_search? hsearch, ← merging?_of_search? hsearch]
      obtain hkept | hmade := merging?_start search.1 search.2
      · exact .inl hkept
      · rw [hmade]
        cases search.1.merging? with
        | none => exact .inr ⟨rfl, rfl⟩
        | some merges => exact .inl rfl

end Operation

/-- The choice that an action makes, of merging replies as they arrive or not. -/
def Action.choice? : Action → Option Bool
  | .operate operation => operation.choice?
  | .answer _ _ => none

namespace Traffic

variable {traffic : Traffic}

theorem merging?_act (traffic : Traffic) (action : Action) :
    (traffic.act action).session.merging? = none ∨
      (traffic.act action).session.merging? = traffic.session.merging?.map action.choice?.getD ∨
      traffic.session.merging? = none ∧ (traffic.act action).session.merging? = some true := by
  cases action with
  | operate operation =>
    by_cases hclear : operation = .clearResults
    · subst hclear
      exact .inl rfl
    · exact .inr (Operation.merging?_run traffic.session hclear)
  | answer call reply =>
    refine .inr (.inl (Eq.trans ?_ Option.map_id'.symm))
    obtain hsession | ⟨arrival, hsession⟩ := session_answer traffic call reply <;>
      rw [act, hsession]
    rfl

/-- The choice of merging that some actions made last; without any, to merge on arrival. -/
def lastChoice (actions : List Action) : Bool :=
  ((actions.filterMap Action.choice?).getLast?).getD true

theorem lastChoice_append_singleton (actions : List Action) (action : Action) :
    lastChoice (actions ++ [action]) = action.choice?.getD (lastChoice actions) := by
  rw [lastChoice, List.filterMap_append]
  cases hchoice : action.choice? with
  | none => rw [List.filterMap_cons_none hchoice, List.filterMap_nil, List.append_nil]; rfl
  | some merges =>
    rw [List.filterMap_cons_some hchoice, List.filterMap_nil, List.getLast?_append]
    rfl

/-- The view was made by one of the actions, has been there since, and merges by the choice
that was made last since then. -/
theorem exists_making {actions : List Action} {merges : Bool}
    (hcreated : traffic.session.view = none)
    (h : (traffic.run actions).session.merging? = some merges) :
    ∃ before making later, actions = before ++ making :: later ∧
      (traffic.run before).session.view = none ∧
      (∀ upTo, upTo <+: later →
        (traffic.run (before ++ making :: upTo)).session.view ≠ none) ∧
      merges = lastChoice later := by
  induction actions using List.reverseRecOn generalizing merges with
  | nil =>
    rw [run, List.foldl_nil, merging?, hcreated] at h
    cases h
  | append_singleton actions action ih =>
    have hrun : traffic.run (actions ++ [action]) = (traffic.run actions).act action :=
      List.foldl_concat ..
    have hview : (traffic.run (actions ++ [action])).session.view ≠ none := by
      intro hnone
      rw [merging?, hnone] at h
      cases h
    rw [hrun] at h
    obtain hnone | hkept | ⟨hnone, hmade⟩ := merging?_act (traffic.run actions) action
    · rw [hnone] at h
      cases h
    · -- the view was there before the action
      rw [hkept] at h
      obtain ⟨held, hheld, rfl⟩ := Option.map_eq_some_iff.1 h
      obtain ⟨before, making, later, rfl, hbefore, hsince, rfl⟩ := ih hheld
      refine ⟨before, making, later ++ [action], by simp, hbefore, fun upTo hupTo => ?_,
        (lastChoice_append_singleton later action).symm⟩
      obtain rfl | hupTo := List.prefix_concat_iff.1 hupTo
      · rwa [List.append_assoc, List.cons_append] at hview
      · exact hsince upTo hupTo
    · -- the action made the view
      rw [hmade] at h
      cases h
      refine ⟨actions, action, [], rfl, Option.map_eq_none_iff.1 hnone, fun upTo hupTo => ?_, rfl⟩
      rw [List.prefix_nil.1 hupTo]
      exact hview

/-- A choice to merge replies as they arrive or to leave them queued holds as long as the view
does that it was made for: what is pulled is taken into a view by the choice that was made
last since the view is there, whatever was done in between, and merged on arrival if none was
made since.  Without a view, a choice changes nothing. -/
theorem view_merges_by_choice_since_made (query : Query) (surroundings : Surroundings)
    (actions : List Action) :
    let start := Traffic.create (.create query surroundings)
    let session := (start.run actions).session
    (session.view = none → ∀ merges, ((Operation.setAutoMerge merges).run session).1 = session) ∧
    ∀ view, session.view = some view →
      ∃ before making later, actions = before ++ making :: later ∧
        (start.run before).session.view = none ∧
        (∀ upTo, upTo <+: later → (start.run (before ++ making :: upTo)).session.view ≠ none) ∧
        ∀ operation : Operation, operation.pulls = true →
          ∃ applied rest : List Arrival, applied.Sublist session.inbox ∧
            let after := (operation.run session).1
            after = (session.applyEach applied).withInbox rest ∧
              after.view = some (applied.foldl (View.takeIn (lastChoice later)) view) := by
  intro start session
  refine ⟨fun hview merges => ?_, fun view hview => ?_⟩
  · have hnone : (session.view.map fun view => view.setAutoMerge merges) = session.view := by
      rw [hview]
      rfl
    exact congrArg (fun view => { session with view }) hnone
  · have hmerging : session.merging? = some view.autoMerge := by
      rw [merging?, hview]
      rfl
    obtain ⟨before, making, later, hactions, hbefore, hsince, hmerges⟩ :=
      @exists_making start actions view.autoMerge rfl hmerging
    refine ⟨before, making, later, hactions, hbefore, hsince, fun operation hpulls => ?_⟩
    obtain ⟨applied, rest, hinbox, hrun⟩ := exists_run_eq_applyEach session hpulls
    refine ⟨applied, rest, hinbox, hrun, ?_⟩
    rw [hrun, view_withInbox_applyEach, hview, Option.map_some, foldl_viewAfter_eq_takeIn, hmerges]

/-- A search whose only source returns one record in reply to a request of some number. -/
def searchWhile (before between : List Operation) (call : Nat) : List Action :=
  before.map .operate ++ .operate (.start {}) :: between.map .operate ++
    [.answer call
      (.ok ⟨[View.titled "a" "Record" none], [⟨"home", some 1, some 1, none, none, []⟩]⟩)]

/-- The numbers of the replies that are applied by a poll in the end, and how many records
are queued then. -/
def appliedAndQueued (actions : List Action) : List Nat × Option Nat :=
  let traffic := (Traffic.create homeOnly).run (actions ++ [.operate .poll])
  (traffic.applied, traffic.session.view.map fun view => view.queue.length)

theorem choice_during_search_is_kept :
    let actions := searchWhile [] [.setAutoMerge false] 0
    let session := ((Traffic.create homeOnly).run actions).session
    appliedAndQueued actions = ([0], some 1) ∧
      ∃ view, session.view = some view ∧ ∃ applied : List Arrival,
        (Operation.poll.run session).1.view = some (applied.foldl (View.takeIn false) view) := by
  intro actions session
  have hviews := (view_merges_by_choice_since_made homeOnly.query homeOnly.surroundings actions).2
  obtain ⟨view, hview⟩ : ∃ view, session.view = some view := ⟨_, rfl⟩
  obtain ⟨before, making, later, hactions, hbefore, -, hpulls⟩ := hviews view hview
  obtain ⟨applied, rest, -, -, hafter⟩ := hpulls .poll rfl
  -- there is a view as soon as the search has started
  have hearly : ∀ front ∈ actions.inits,
      ((Traffic.create homeOnly).run front).session.view.isNone = true → front.isEmpty = true := by
    decide +kernel
  have hfront : before ∈ actions.inits := (List.mem_inits _ _).2 ⟨making :: later, hactions.symm⟩
  have hnil : before = [] :=
    List.isEmpty_iff.1 (hearly before hfront (Option.isNone_iff_eq_none.2 hbefore))
  have hlater : later = actions.tail := by rw [hactions, hnil, List.nil_append, List.tail_cons]
  have hchoice : lastChoice later = false := hlater ▸ rfl
  rw [hchoice] at hafter
  exact ⟨by decide +kernel, view, hview, applied, hafter⟩

/-- A choice that is made before the first search is lost, and so is one made before results
are cleared. -/
theorem choice_without_view_is_lost :
    let early := searchWhile [.setAutoMerge false] [] 0
    let cleared := searchWhile [.start {}, .setAutoMerge false, .clearResults] [] 1
    lastChoice early = false ∧ appliedAndQueued early = ([0], some 0) ∧
      lastChoice cleared = false ∧ appliedAndQueued cleared = ([1], some 0) := by
  decide +kernel

end Traffic

end CatalogSearch
