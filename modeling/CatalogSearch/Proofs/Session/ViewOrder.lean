import CatalogSearch.Proofs.Session.Restarting
import CatalogSearch.Proofs.Session.Turns
import CatalogSearch.Proofs.View.Changes

/-!
# The order of the view

In whatever order a session is operated and answered, the results in view are sorted by
the keys of its query.  A search sorts its seeds by them, and from then on the keys of view
and query change together only.
-/

namespace CatalogSearch

namespace View

/-- A view after a change that leaves its keys and its order alone. -/
structure KeepsOrder (view after : View) : Prop where
  sorts : after.sorts = view.sorts
  sorted : view.Sorted → after.Sorted

theorem KeepsOrder.refl (view : View) : KeepsOrder view view := ⟨rfl, id⟩

theorem KeepsOrder.trans {view between after : View} (h : KeepsOrder view between)
    (hrest : KeepsOrder between after) : KeepsOrder view after :=
  ⟨hrest.sorts.trans h.sorts, fun hsorted => hrest.sorted (h.sorted hsorted)⟩

theorem keepsOrder_merge (view : View) : KeepsOrder view view.merge :=
  ⟨rfl, fun h => h.take .merge⟩

theorem keepsOrder_enqueue (view : View) (asked : String) (items : List Answer.Item) :
    KeepsOrder view (view.enqueue asked items) :=
  ⟨rfl, fun h => h.take (.deliver asked items)⟩

end View

namespace Session

open View (KeepsOrder)

theorem keepsOrder_viewWith (view : View) (asked : String) (items : List Answer.Item) :
    KeepsOrder view (viewWith view asked items) := by
  have hqueued := View.keepsOrder_enqueue view asked items
  obtain hview | hview := viewWith_eq_or view asked items
  · rw [hview]
    exact hqueued.trans (View.keepsOrder_merge _)
  · rw [hview]
    exact hqueued

theorem keepsOrder_viewAfter (view : View) (arrival : Arrival) :
    KeepsOrder view (viewAfter view arrival) := by
  unfold viewAfter
  split
  · exact keepsOrder_viewWith view _ _
  · exact .refl view

theorem keepsOrder_settledView (view : View) : KeepsOrder view (settledView view) := by
  unfold settledView
  split
  · exact .refl view
  · exact View.keepsOrder_merge view

/-- The results in view, if there is a view, are sorted by the keys of the query. -/
def InOrder (session : Session) : Prop :=
  ∀ view, session.view = some view → view.sorts = session.query.sorts ∧ view.Sorted

variable {session after : Session}

theorem InOrder.of_map {change : View → View} (h : session.InOrder)
    (hsorts : after.query.sorts = session.query.sorts)
    (hview : after.view = session.view.map change)
    (hkeeps : ∀ view, KeepsOrder view (change view)) : after.InOrder := by
  intro changed hchanged
  rw [hview] at hchanged
  obtain ⟨view, hsome, rfl⟩ := Option.map_eq_some_iff.1 hchanged
  obtain ⟨hkeys, hsorted⟩ := h view hsome
  exact ⟨((hkeeps view).sorts.trans hkeys).trans hsorts.symm, (hkeeps view).sorted hsorted⟩

theorem InOrder.of_eq (h : session.InOrder) (hsorts : after.query.sorts = session.query.sorts)
    (hview : after.view = session.view) : after.InOrder :=
  h.of_map hsorts (hview.trans Option.map_id'.symm) KeepsOrder.refl

theorem InOrder.of_view_eq_none (hview : after.view = none) : after.InOrder := by
  intro view hsome
  rw [hview] at hsome
  cases hsome

/-- Sorting a view in order changes nothing. -/
theorem InOrder.map_sort (h : session.InOrder) : session.view.map View.sort = session.view := by
  cases hview : session.view with
  | none => rfl
  | some view => exact congrArg some (h view hview).2.sort_eq

/-- A search that is not refused sorts its seeds by the keys of the query. -/
theorem view_dispatch (session : Session) (options : SearchOptions) :
    (session.refreshed.cancel.dispatch options).2.view =
      some ((session.refreshed.cancel.view.getD (.empty session.query.sorts)).restart
        session.query.sorts options.seedResults) := by
  have hsorts : session.refreshed.cancel.query.sorts = session.query.sorts :=
    congrArg Basis.sorts (keeps_cancel session.refreshed).basis
  rw [← hsorts]
  by_cases h : (session.refreshed.cancel.prepare options).nextRequests options = []
  · rw [dispatch_of_nextRequests_nil h]
    rfl
  · rw [dispatch_of_nextRequests_ne_nil h]
    rfl

theorem InOrder.start (h : session.InOrder) (options : SearchOptions) :
    (sending (session.start options)).1.InOrder := by
  by_cases hstarts : session.Starts options
  · intro view hview
    have hsorts : (sending (session.start options)).1.query.sorts = session.query.sorts := by
      rw [(prepared_start_of_starts hstarts).query]
      rfl
    rw [hsorts]
    rw [start_of_starts hstarts, sending, view_dispatch] at hview
    obtain rfl := Option.some.inj hview
    exact ⟨rfl, View.sorted_sort _⟩
  · rw [start_of_not_starts hstarts]
    exact h.of_eq rfl rfl

/-- New keys are those of the query as well as of the view. -/
theorem inOrder_setSorts (session : Session) (sorts : List SortKey) :
    (session.setSorts sorts).InOrder := by
  intro changed hchanged
  obtain ⟨view, -, rfl⟩ := Option.map_eq_some_iff.1 hchanged
  exact ⟨rfl, View.sorted_sort _⟩

theorem InOrder.cancel (h : session.InOrder) : session.cancel.InOrder :=
  h.of_map (congrArg Basis.sorts (keeps_cancel session).basis) (view_cancel session)
    fun _ => ⟨rfl, id⟩

theorem InOrder.apply (h : session.InOrder) (arrival : Arrival) :
    (session.apply arrival).InOrder :=
  h.of_map (congrArg Query.sorts (keeps_apply session arrival).query) (view_apply session arrival)
    fun view => keepsOrder_viewAfter view arrival

theorem InOrder.applyAll (h : session.InOrder) (arrivals : List Arrival) :
    (session.applyAll arrivals).1.InOrder := by
  induction arrivals generalizing session with
  | nil => exact h.of_eq rfl rfl
  | cons arrival rest ih =>
    rw [Session.applyAll]
    cases session.round with
    | none => exact h.of_eq rfl rfl
    | some round =>
      dsimp only
      split
      · exact ih (h.apply arrival)
      · exact ih h

theorem InOrder.nextUpdate (h : session.InOrder) :
    (session.nextUpdate?.getD session).InOrder := by
  cases hround : session.round with
  | none =>
    have hnone : session.nextUpdate? = none := by
      rw [nextUpdate?, hround]
      rfl
    rw [hnone]
    exact h
  | some round =>
    rw [nextUpdate?_eq hround]
    cases takeArrival? round.id session.inbox with
    | none => exact h
    | some taken =>
      have hinbox : (session.withInbox taken.2).InOrder := h.of_eq rfl rfl
      exact hinbox.apply taken.1

end Session

namespace Operation

open Session

variable {session : Session}

/-- The view that a search is run from is that of before, or settled for a wider search. -/
theorem view_of_search? {before : Session} {operation : Operation} {options : SearchOptions}
    (hsearch : operation.search? session = some (before, options)) :
    before.query.sorts = session.query.sorts ∧
      (before.view = session.view ∨ before.view = session.view.map settledView) := by
  cases operation with
  | start | startFromFirstPage | nextPage | startLocal =>
    cases hsearch
    exact ⟨rfl, .inl rfl⟩
  | startIfOutdated =>
    simp only [search?, Option.ite_none_right_eq_some] at hsearch
    cases hsearch.2
    exact ⟨rfl, .inl rfl⟩
  | previousPage =>
    obtain ⟨tracker, -, hsearch⟩ := Option.map_eq_some_iff.1 hsearch
    cases hsearch
    exact ⟨rfl, .inl rfl⟩
  | widen =>
    simp only [search?, Option.ite_none_left_eq_some, Option.bind_eq_some_iff] at hsearch
    obtain ⟨-, view, hview, -, hsearch⟩ := hsearch
    cases hsearch
    exact ⟨rfl, .inr (hview ▸ rfl)⟩
  | _ => cases hsearch

theorem inOrder_of_search? {before : Session} {operation : Operation} {options : SearchOptions}
    (hsearch : operation.search? session = some (before, options)) (h : session.InOrder) :
    before.InOrder := by
  obtain ⟨hsorts, hview | hview⟩ := view_of_search? hsearch
  · exact h.of_eq hsorts hview
  · exact h.of_map hsorts hview keepsOrder_settledView

/-- An operation that runs no search keeps the view in order. -/
theorem inOrder_of_search?_eq_none {operation : Operation}
    (hsearch : operation.search? session = none) (h : session.InOrder) :
    (operation.run session).1.InOrder := by
  cases operation with
  | start | startFromFirstPage | startIfOutdated | nextPage | previousPage | startLocal
  | widen =>
    obtain hrun | hrun := run_of_search?_eq_none rfl hsearch <;> rw [hrun]
    · exact h
    · exact h.of_map rfl rfl keepsOrder_settledView
  | cancel => exact h.cancel
  | clearResults => exact .of_view_eq_none rfl
  | setSorts sorts => exact inOrder_setSorts session sorts
  | setFilter | setFederation | setSources | setSourcesFromRegistry | preferencesChanged
  | setPageSize | setHook => exact h.of_eq rfl rfl
  | setAutoMerge => exact h.of_map rfl rfl fun view => ⟨rfl, id⟩
  | mergeResults =>
    rw [run, Session.mergeResults]
    split
    · exact h
    · rename_i view hview
      exact h.of_map rfl (hview ▸ rfl) View.keepsOrder_merge
  | nextUpdate => exact h.nextUpdate
  | poll => exact h.applyAll session.inbox

theorem inOrder_run (h : session.InOrder) (operation : Operation) :
    (operation.run session).1.InOrder := by
  cases hsearch : operation.search? session with
  | some search =>
    rw [run_of_search? hsearch]
    exact (inOrder_of_search? hsearch h).start search.2
  | none => exact inOrder_of_search?_eq_none hsearch h

end Operation

namespace Traffic

variable {traffic : Traffic}

theorem inOrder_act (h : traffic.session.InOrder) (action : Action) :
    (traffic.act action).session.InOrder := by
  cases action with
  | operate operation => exact Operation.inOrder_run h operation
  | answer call reply =>
    obtain hsession | ⟨arrival, hsession⟩ := session_answer traffic call reply <;>
      rw [act, hsession]
    · exact h
    · exact h.of_eq rfl rfl

theorem inOrder_run (h : traffic.session.InOrder) (actions : List Action) :
    (traffic.run actions).session.InOrder := by
  induction actions generalizing traffic with
  | nil => exact h
  | cons action actions ih => exact ih (inOrder_act h action)

end Traffic

/-- The order of results under any keys is total and transitive, and levels results only
that agree on every key and on their arrival.  The records of a view are always in that order
under the keys of the view, whatever is done to it, and the keys of the view in a session
are always those of its query, whatever is done with the session and whatever is answered.
Sorting such a view once more changes nothing. -/
theorem view_is_sorted :
    (∀ sorts : List SortKey, (Std.TransCmp fun left right : Result => left.order right sorts) ∧
      ∀ left right : Result, left.order right sorts = .eq ↔
        (∀ key ∈ sorts, left.sortValue? key.name = right.sortValue? key.name) ∧
          left.arrival = right.arrival) ∧
    (∀ (sorts : List SortKey) (changes : List View.Change),
      let view := (View.empty sorts).changeAll changes
      view.Sorted ∧ view.sort = view) ∧
    ∀ (query : Query) (surroundings : Surroundings) (actions : List Action),
      let session := ((Traffic.create (.create query surroundings)).run actions).session
      session.InOrder ∧ session.view.map View.sort = session.view := by
  refine ⟨fun sorts => ⟨Result.transCmp_order sorts, fun _ _ => Result.order_eq_iff sorts⟩,
    fun sorts changes => ?_, fun query surroundings actions => ?_⟩
  · have hempty : (View.empty sorts).Sorted := .nil
    exact ⟨hempty.changeAll changes, (hempty.changeAll changes).sort_eq⟩
  · have hcreated : (Session.create query surroundings).InOrder := .of_view_eq_none rfl
    have hsession := @Traffic.inOrder_run (.create _) hcreated actions
    exact ⟨hsession, hsession.map_sort⟩

end CatalogSearch
