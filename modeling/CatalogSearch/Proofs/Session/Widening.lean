import CatalogSearch.Proofs.Paging.Groups
import CatalogSearch.Proofs.Session.AnyOrder
import CatalogSearch.Proofs.Session.ViewOrder
import CatalogSearch.Proofs.View.Retaining

/-!
# Widening a search

A tiered search asks the local catalog first and asks every source if a wanted record did
not come.  It is widened for that reason only, and what the local round found stays: it is in
view when the wider round begins, and whatever comes in that round leaves it there, but for
cached copies that give way to what another source than the cache delivers.
-/

namespace CatalogSearch

/-- The items of an answer, delivered for the first source of its request. -/
def Arrival.deliveries (arrival : Arrival) : List View.Delivery :=
  match arrival.reply with
  | .ok answer => answer.items.map (View.Delivery.mk (arrival.request.sources.head?.getD ""))
  | .error _ => []

/-- Whether a result came with some replies, from another source than the cache. -/
def Delivers (replies : List Arrival) (result : Result) : Prop :=
  ∃ arrival ∈ replies, ∃ delivery ∈ arrival.deliveries,
    delivery.isReal result.id = true ∧ delivery.item.metacard = result.metacard

namespace View

variable {view : View}

/-- A result that arrives and is no cached copy was delivered. -/
theorem exists_delivery_of_mem_arriving {asked : String} {arrival : Nat}
    {items : List Answer.Item} {result : Result} (h : result ∈ arriving asked arrival items)
    (hreal : result.isCached = false) :
    ∃ delivery ∈ items.map (Delivery.mk asked),
      delivery.isReal result.id = true ∧ delivery.item.metacard = result.metacard := by
  have hfiling : filing result ∈ (arriving asked arrival items).map filing :=
    List.mem_map_of_mem h
  rw [map_filing_arriving] at hfiling
  obtain ⟨delivery, hdelivery, hresult⟩ := List.mem_filterMap.1 hfiling
  obtain ⟨hmetacard, -, hisReal⟩ := of_filing? hresult
  rw [hreal] at hisReal
  exact ⟨delivery, hdelivery, hisReal, hmetacard⟩

end View

namespace Session

open View (Retains)

variable {replies : List Arrival} {records : List Result} {view : View}

/-! ## One reply -/

theorem isSome_held_viewAfter (h : view.Distinct) (arrival : Arrival) (id : String) :
    ((viewAfter view arrival).held id).isSome = ((view.held id).isSome || brings id arrival) := by
  obtain ⟨request, failure | answer⟩ := arrival
  · exact (Bool.or_false _).symm
  · have hqueued := view.isSome_held_enqueue (request.sources.head?.getD "") answer.items id
    have hdistinct : (view.enqueue (request.sources.head?.getD "") answer.items).Distinct := h
    change ((viewWith view _ answer.items).held id).isSome = _
    obtain hview | hview := viewWith_eq_or view _ answer.items
    · rw [hview, View.held_merge hdistinct]
      exact hqueued
    · rw [hview]
      exact hqueued

theorem distinct_viewAfter (h : view.Distinct) (arrival : Arrival) :
    (viewAfter view arrival).Distinct := by
  obtain ⟨request, failure | answer⟩ := arrival
  · exact h
  · have hqueued : (view.enqueue (request.sources.head?.getD "") answer.items).Distinct := h
    change (viewWith view _ answer.items).Distinct
    obtain hview | hview := viewWith_eq_or view _ answer.items
    · rw [hview]
      exact hqueued.merge
    · rw [hview]
      exact hqueued

/-- What a view holds of ids after some replies, whether they were merged or not. -/
theorem isSome_held_foldl_viewAfter (h : view.Distinct) (arrivals : List Arrival) (id : String) :
    ((arrivals.foldl viewAfter view).held id).isSome =
      ((view.held id).isSome || arrivals.any (brings id)) := by
  induction arrivals generalizing view with
  | nil => exact (Bool.or_false _).symm
  | cons arrival rest ih =>
    rw [List.foldl_cons, ih (distinct_viewAfter h arrival), isSome_held_viewAfter h,
      Bool.or_assoc, List.any_cons]

theorem distinct_foldl_viewAfter (h : view.Distinct) (arrivals : List Arrival) :
    (arrivals.foldl viewAfter view).Distinct :=
  List.foldlRecOn arrivals _ h fun _ hview arrival _ => distinct_viewAfter hview arrival

theorem retains_viewAfter (h : Retains (Delivers replies) records view) {arrival : Arrival}
    (harrival : arrival ∈ replies) : Retains (Delivers replies) records (viewAfter view arrival) := by
  obtain ⟨request, failure | answer⟩ := arrival
  · exact h
  · have hqueued : Retains (Delivers replies) records
        (view.enqueue (request.sources.head?.getD "") answer.items) := by
      refine h.enqueue fun result hresult hreal => ?_
      exact ⟨_, harrival, View.exists_delivery_of_mem_arriving hresult hreal⟩
    change Retains _ _ (viewWith view _ answer.items)
    obtain hview | hview := viewWith_eq_or view _ answer.items
    · rw [hview]
      exact hqueued.merge
    · rw [hview]
      exact hqueued

theorem retains_foldl_viewAfter (h : Retains (Delivers replies) records view)
    {arrivals : List Arrival} (harrivals : arrivals ⊆ replies) :
    Retains (Delivers replies) records (arrivals.foldl viewAfter view) :=
  List.foldlRecOn arrivals _ h fun _ hview _ harrival => retains_viewAfter hview (harrivals harrival)

end Session

/-! ## While the wider round runs -/

/-- What may happen to a session. -/
inductive Happening
  | arrives (arrival : Arrival)
  | operate (operation : Operation)

namespace Happening

def arrival? : Happening → Option Arrival
  | arrives arrival => some arrival
  | operate _ => none

/-- Whether no other search is run and results are not cleared. -/
def spares : Happening → Bool
  | arrives _ => true
  | operate .clearResults => false
  | operate operation => !operation.searches

end Happening

namespace Session

open View (Retains)

def meet (session : Session) : Happening → Session
  | .arrives arrival => session.deliver arrival
  | .operate operation => (operation.run session).1

/-- A session that keeps some records in view while replies to a round come in. -/
structure Carries (round : RoundId) (replies : List Arrival) (records : List Result)
    (session : Session) : Prop where
  runs : session.RunsOnly round
  inbox : ofRound round session.inbox ⊆ replies
  view : ∃ view, session.view = some view ∧ Retains (Delivers replies) records view

namespace Carries

variable {round : RoundId} {replies : List Arrival} {records : List Result}
  {session after : Session}

/-- A change of the view that keeps the records, and at most ends the round. -/
theorem of_map (h : Carries round replies records session) {change : View → View}
    (hround : after.round = session.round ∨ after.round = none)
    (hinbox : after.inbox = session.inbox ∨ after.inbox = [])
    (hview : after.view = session.view.map change)
    (hretains : ∀ view, Retains (Delivers replies) records view →
      Retains (Delivers replies) records (change view)) :
    Carries round replies records after where
  runs := by
    intro running hrunning
    obtain hround | hround := hround
    · exact h.runs running (hround.symm.trans hrunning)
    · rw [hround] at hrunning
      cases hrunning
  inbox := by
    obtain hinbox | hinbox := hinbox
    · rw [hinbox]
      exact h.inbox
    · rw [hinbox]
      exact List.nil_subset _
  view := by
    obtain ⟨view, hsome, hview'⟩ := h.view
    exact ⟨change view, by rw [hview, hsome, Option.map_some], hretains view hview'⟩

theorem of_eq (h : Carries round replies records session) (hround : after.round = session.round)
    (hinbox : after.inbox = session.inbox) (hview : after.view = session.view) :
    Carries round replies records after :=
  h.of_map (.inl hround) (.inl hinbox) (hview.trans Option.map_id'.symm) fun _ hview => hview

theorem deliver (h : Carries round replies records session) {arrival : Arrival}
    (harrival : ofRound round [arrival] ⊆ replies) :
    Carries round replies records (session.deliver arrival) where
  runs := h.runs
  inbox := by
    change ofRound round (session.inbox ++ [arrival]) ⊆ replies
    rw [ofRound_append]
    exact List.append_subset.2 ⟨h.inbox, harrival⟩
  view := h.view

/-- Pulling applies some of the replies that wait. -/
theorem turn (h : Carries round replies records session) (turn : Turn)
    (hnone : turn.arrival? = none) :
    Carries round replies records (session.turn turn) := by
  obtain ⟨applied, rest, hof, hturn⟩ := turn_eq h.runs turn
  have hinbox : applied ++ ofRound round rest ⊆ replies := by
    rw [← hof, hnone]
    simpa using h.inbox
  obtain ⟨happlied, hrest⟩ := List.append_subset.1 hinbox
  obtain ⟨view, hview, hretains⟩ := h.view
  rw [hturn]
  refine ⟨h.runs.applyEach applied, hrest, applied.foldl viewAfter view, ?_,
    retains_foldl_viewAfter hretains happlied⟩
  change (session.applyEach applied).view = _
  rw [view_applyEach, hview]
  rfl

theorem cancel (h : Carries round replies records session) :
    Carries round replies records session.cancel :=
  h.of_map (.inr (round_cancel session)) (.inr (inbox_cancel session)) (view_cancel session)
    fun _ => Retains.emptyQueue

theorem operate (h : Carries round replies records session) {operation : Operation}
    (hspares : (Happening.operate operation).spares = true) :
    Carries round replies records (operation.run session).1 := by
  cases operation with
  | start | startFromFirstPage | startIfOutdated | nextPage | previousPage | startLocal | widen
  | clearResults => cases hspares
  | cancel => exact h.cancel
  | setSorts sorts => exact h.of_map (.inl rfl) (.inl rfl) rfl fun _ hview => hview.setSorts sorts
  | setAutoMerge autoMerge =>
    exact h.of_map (.inl rfl) (.inl rfl) rfl fun _ hview => hview.setAutoMerge autoMerge
  | mergeResults =>
    obtain ⟨view, hview, hretains⟩ := h.view
    rw [Operation.run, Session.mergeResults, hview]
    exact ⟨h.runs, h.inbox, view.merge, rfl, hretains.merge⟩
  | nextUpdate => exact h.turn .nextUpdate rfl
  | poll => exact h.turn .poll rfl
  | setFilter | setFederation | setSources | setSourcesFromRegistry | preferencesChanged
  | setPageSize | setHook => exact h.of_eq rfl rfl rfl

/-- Whatever happens short of another search, the records stay. -/
theorem foldl_meet (h : Carries round replies records session) {happenings : List Happening}
    (hspares : ∀ happening ∈ happenings, happening.spares = true)
    (hreplies : ofRound round (happenings.filterMap Happening.arrival?) ⊆ replies) :
    Carries round replies records (happenings.foldl meet session) := by
  induction happenings generalizing session with
  | nil => exact h
  | cons happening rest ih =>
    obtain ⟨hfirst, hrest⟩ := List.forall_mem_cons.1 hspares
    cases happening with
    | operate operation => exact ih (h.operate hfirst) hrest hreplies
    | arrives arrival =>
      have hsome : (Happening.arrives arrival).arrival? = some arrival := rfl
      rw [List.filterMap_cons_some hsome, ← List.singleton_append, ofRound_append] at hreplies
      obtain ⟨harrival, hlater⟩ := List.append_subset.1 hreplies
      exact ih (h.deliver harrival) hrest hlater

end Carries

/-! ## The local round -/

/-- The view of a round without seeds, when it has settled. -/
structure Gathers (replies : List Arrival) (sorts : List SortKey) (view : View) : Prop where
  distinct : view.Distinct
  sorted : view.Sorted
  sorts : view.sorts = sorts
  held : ∀ id, (view.held id).isSome = replies.any (brings id)

/-- A view begins a round with nothing in it. -/
theorem gathers_restart (view : View) (sorts : List SortKey) :
    Gathers [] sorts (view.restart sorts []) where
  distinct := ((View.arrange_perm sorts []).map Result.id).nodup_iff.2 List.nodup_nil
  sorted := View.sorted_sort _
  sorts := rfl
  held id := by
    have hrecords : (view.restart sorts []).records = [] := (View.arrange_perm sorts []).eq_nil
    rw [View.held, View.queue_restart, List.foldl_nil, hrecords]
    rfl

theorem Gathers.foldl_viewAfter {sorts : List SortKey} {view : View} (h : Gathers [] sorts view)
    (replies : List Arrival) : Gathers replies sorts (replies.foldl viewAfter view) := by
  have hkeeps : View.KeepsOrder view (replies.foldl viewAfter view) :=
    List.foldlRecOn replies _ (.refl view) fun before hbefore reply _ =>
      hbefore.trans (keepsOrder_viewAfter before reply)
  refine ⟨distinct_foldl_viewAfter h.distinct replies, hkeeps.sorted h.sorted,
    hkeeps.sorts.trans h.sorts, fun id => ?_⟩
  rw [isSome_held_foldl_viewAfter h.distinct, h.held]
  exact Bool.false_or _

theorem gathers_of_drained {before session : Session} {options : SearchOptions} {id : RoundId}
    {requests : List Request} {turns : List Turn}
    (hsent : before.start options = (.ok (.dispatched id requests), session))
    (hseeds : options.seedResults = [])
    (hanswers : ((repliesTo id turns).map Arrival.request).Perm requests) :
    ∃ view, (session.drained turns).view = some view ∧
      Gathers (repliesTo id turns) before.query.sorts view := by
  have hconcludes := concludes_drained hsent hanswers
  have hstart := start_of_starts (start_eq_dispatched_iff.1 hsent).1
  have hsession : session = (before.refreshed.cancel.dispatch options).2 :=
    congrArg Prod.snd (hsent.symm.trans hstart)
  rw [hconcludes.view, hsession, view_dispatch, hseeds]
  exact ⟨_, rfl, (gathers_restart _ _).foldl_viewAfter _⟩

namespace Gathers

variable {replies : List Arrival} {sorts : List SortKey} {view : View}

/-- Settling the view merges what is queued, if anything is. -/
theorem settledView_eq (h : Gathers replies sorts view) : settledView view = view.merge := by
  rw [settledView]
  split
  · rename_i hempty
    obtain ⟨records, queue, keys, autoMerge, arrivals⟩ := view
    obtain rfl : queue = [] := List.isEmpty_iff.1 hempty
    exact h.sorted.sort_eq.symm
  · rfl

theorem contains_merge (h : Gathers replies sorts view) (id : String) :
    view.merge.contains id = replies.any (brings id) :=
  (view.contains_merge id).trans (h.held id)

/-- Seeds that are in order stay in it. -/
theorem restart_merge (h : Gathers replies sorts view) (before : View) :
    (before.restart sorts view.merge.records).records = view.merge.records := by
  rw [← h.sorts]
  exact List.mergeSort_of_pairwise
    (View.pairwise_arrange view.sorts (view.queue.foldl View.absorb view.records))

end Gathers

/-! ## The wider round -/

/-- A search that is not refused begins a round of its own, with nothing in the inbox. -/
theorem round_dispatch (session : Session) (options : SearchOptions) :
    (session.refreshed.cancel.dispatch options).2.RunsOnly (session.rounds + 1) ∧
      (session.refreshed.cancel.dispatch options).2.inbox = [] := by
  by_cases h : (session.refreshed.cancel.prepare options).nextRequests options = []
  · rw [dispatch_of_nextRequests_nil h]
    refine ⟨fun running hrunning => ?_, rfl⟩
    have hnone := round_cancel session.refreshed
    rw [show session.refreshed.cancel.round = some running from hrunning] at hnone
    cases hnone
  · have hrounds : session.refreshed.cancel.rounds = session.rounds :=
      rounds_cancel session.refreshed
    rw [dispatch_of_nextRequests_ne_nil h, hrounds]
    refine ⟨fun running hrunning => ?_, rfl⟩
    cases hrunning
    rfl

variable {session : Session} {view : View} {wanted : List String}

theorem widen_of_found (hview : session.view = some view)
    (hall : wanted.all (settledView view).contains = true) (found : SearchOutcome) :
    session.widen wanted found =
      (.ok ⟨false, found⟩, { session with view := some (settledView view) }) := by
  rw [widen_eq, hview]
  exact if_pos hall

/-- A wider search begins with what was found. -/
theorem widen_of_missing {replies : List Arrival} (hview : session.view = some view)
    (hgathers : Gathers replies session.query.sorts view) (hstarts : session.Starts {})
    (hmissing : wanted.all (settledView view).contains = false) (found : SearchOutcome) :
    ∃ outcome after, session.widen wanted found = (.ok ⟨true, outcome⟩, after) ∧
      after.view.map View.records = some view.merge.records ∧
      ∀ later, Carries (session.rounds + 1) later view.merge.records after := by
  let before : Session :=
    { session with
      view := some view.merge
      query := { session.query with federation := .enterprise } }
  let options : SearchOptions :=
    { seedResults := view.merge.records, seedStatuses := session.statuses }
  have hwiden : session.widen wanted found =
      ((before.start options).1.map fun outcome => ⟨true, outcome⟩, (before.start options).2) := by
    rw [widen_eq, hview]
    dsimp only
    rw [if_neg (by rw [hmissing]; exact Bool.false_ne_true), hgathers.settledView_eq]
    rfl
  have hbefore : before.Starts options := hstarts
  rw [hwiden, start_of_starts hbefore]
  have hrestart := view_dispatch before options
  have hrecords := hgathers.restart_merge
    (before.refreshed.cancel.view.getD (.empty before.query.sorts))
  obtain ⟨hruns, hinbox⟩ := round_dispatch before options
  refine ⟨_, _, rfl, ?_, fun later => ⟨hruns, ?_, _, hrestart, ?_⟩⟩
  · rw [hrestart]
    exact congrArg some hrecords
  · rw [hinbox]
    exact List.nil_subset _
  · have hdistinct : View.Distinct ((before.refreshed.cancel.view.getD
        (.empty before.query.sorts)).restart before.query.sorts options.seedResults) := by
      rw [View.Distinct]
      exact hrecords ▸ hgathers.distinct.merge
    have hretains : Retains (Delivers later) _ _ :=
      .of_distinct hdistinct (View.queue_restart _ _ _)
    rwa [hrecords] at hretains

/-- What becomes of a record while nothing else is searched. -/
theorem Carries.shown {round : RoundId} {replies : List Arrival} {records : List Result}
    (h : Carries round replies records session) :
    ∃ last, session.view = some last ∧ ∀ record ∈ records, ∃ shown ∈ last.records,
      shown.id = record.id ∧ (shown = record ∨
        record.isCached = true ∧ shown.isCached = false ∧ Delivers replies shown) := by
  obtain ⟨last, hlast, hretains⟩ := h.view
  refine ⟨last, hlast, fun record hrecord => ?_⟩
  obtain ⟨shown, hfind, hbecomes⟩ := hretains.shown record hrecord
  refine ⟨shown, (Roster.mem_of_find? Result.id hfind).1, hbecomes.id_eq, ?_⟩
  obtain rfl | ⟨hcached, result, hresult, hreal, -, rfl⟩ := hbecomes
  · exact .inl rfl
  · exact .inr ⟨hcached, hreal, hresult⟩

/-- What the second half of a tiered search comes to, where the local round left a view after
some replies. -/
structure Widens (wanted : List String) (replies : List Arrival) (view : View) (round : RoundId)
    (tiered : TieredOutcome) (after : Session) : Prop where
  /-- The search is widened if a wanted record came with none of the replies, and only then. -/
  escalated : tiered.escalated = true ↔ ∃ id ∈ wanted, ∀ reply ∈ replies, brings id reply = false
  /-- Otherwise all wanted records are in view. -/
  found : tiered.escalated = false →
    ∃ shown, after.view = some shown ∧ ∀ id ∈ wanted, ∃ record ∈ shown.records, record.id = id
  /-- The wider search begins with the merged records of the local round, in their order. -/
  seeded : tiered.escalated = true → after.view.map View.records = some view.merge.records
  /-- Each of them stays as it is, or, if it is filed under the cache, until a reply to the
  wider round delivers a record of its id from another source. -/
  kept : tiered.escalated = true → ∀ happenings : List Happening,
    (∀ happening ∈ happenings, happening.spares = true) →
      ∃ last, (happenings.foldl meet after).view = some last ∧
        ∀ record ∈ view.merge.records, ∃ shown ∈ last.records, shown.id = record.id ∧
          (shown = record ∨ record.isCached = true ∧ shown.isCached = false ∧
            Delivers (ofRound round (happenings.filterMap Happening.arrival?)) shown)

theorem widens_of_gathers {replies : List Arrival} (hview : session.view = some view)
    (hgathers : Gathers replies session.query.sorts view) (hstarts : session.Starts {})
    (wanted : List String) (found : SearchOutcome) :
    ∃ tiered after, session.widen wanted found = (.ok tiered, after) ∧
      Widens wanted replies view (session.rounds + 1) tiered after := by
  have hcontains (id : String) : (settledView view).contains id = replies.any (brings id) := by
    rw [hgathers.settledView_eq, hgathers.contains_merge]
  cases hall : wanted.all (settledView view).contains with
  | true =>
    have hwanted := List.all_eq_true.1 hall
    refine ⟨_, _, widen_of_found hview hall found, ⟨nofun, ?_⟩, fun _ => ⟨_, rfl, ?_⟩, nofun, nofun⟩
    · rintro ⟨id, hid, hnone⟩
      have hsome := hwanted id hid
      rw [hcontains, List.any_eq_true] at hsome
      obtain ⟨reply, hreply, hbrings⟩ := hsome
      rw [hnone reply hreply] at hbrings
      cases hbrings
    · intro id hid
      obtain ⟨record, hrecord, hsame⟩ := List.any_eq_true.1 (hwanted id hid)
      exact ⟨record, hrecord, eq_of_beq hsame⟩
  | false =>
    obtain ⟨outcome, after, hwiden, hrecords, hcarries⟩ :=
      widen_of_missing hview hgathers hstarts hall found
    refine ⟨_, after, hwiden, ⟨fun _ => ?_, fun _ => rfl⟩, nofun, fun _ => hrecords, ?_⟩
    · obtain ⟨id, hid, hmissing⟩ := List.all_eq_false.1 hall
      rw [hcontains, Bool.not_eq_true, List.any_eq_false] at hmissing
      exact ⟨id, hid, fun reply hreply => Bool.not_eq_true _ ▸ hmissing reply hreply⟩
    · intro _ happenings hspares
      exact ((hcarries _).foldl_meet hspares (List.Subset.refl _)).shown

/-- The local catalog is asked, whatever was searched before. -/
theorem exists_startLocal (hhook : session.surroundings.hook = none)
    (hfilter : session.query.filter.isEmpty = false) (hsize : session.surroundings.pageSize ≠ 0)
    (hcatalog : session.registry.localCatalog ≠ Source.cacheId) :
    ∃ requests started,
      session.startLocal = (.ok (.dispatched (session.rounds + 1) requests), started) := by
  let before : Session :=
    { session with query := { session.query with federation := .localCatalog } }
  have hstarts : before.Starts {} := ⟨hfilter, fun hzero => absurd hzero hsize⟩
  have hrequests : before.roundRequests {} ≠ [] := by
    have hbefore : before.surroundings.hook = none := hhook
    rw [roundRequests_of_unhooked hbefore]
    exact Request.split_ne_nil ⟨session.registry.localCatalog, List.mem_singleton_self _, hcatalog⟩
  exact ⟨_, _, start_eq_dispatched_iff.2 ⟨hstarts, rfl, hrequests, rfl, rfl⟩⟩

/-- A tiered search asks the local catalog.  Once all of its replies were pulled, in whatever
order and mixed with late ones to earlier rounds, the search is widened if and only if some
wanted record came with none of them, and otherwise all wanted records are in view.  A wider
search begins with the merged records of the local round in view, in the same order.  From
then on, whatever arrives and whatever is done but for another search and clearing results,
each of these records stays in view as it is, or, if it is filed under the cache, until a
source that is not the cache delivers a record of its id. -/
theorem tiered_search_finds_or_widens (hhook : session.surroundings.hook = none)
    (hfilter : session.query.filter.isEmpty = false) (hsize : session.surroundings.pageSize ≠ 0)
    (hcatalog : session.registry.localCatalog ≠ Source.cacheId) :
    ∃ requests started,
      session.startLocal = (.ok (.dispatched (session.rounds + 1) requests), started) ∧
      ∀ turns : List Turn,
        ((repliesTo (session.rounds + 1) turns).map Arrival.request).Perm requests →
          let found := started.drained turns
          found.state = .settled ∧ ∃ view, found.view = some view ∧
            ∀ wanted : List String, ∃ tiered after,
              found.widen wanted (.dispatched (session.rounds + 1) requests) =
                  (.ok tiered, after) ∧
                Widens wanted (repliesTo (session.rounds + 1) turns) view (found.rounds + 1)
                  tiered after := by
  obtain ⟨requests, started, hstarted⟩ := exists_startLocal hhook hfilter hsize hcatalog
  refine ⟨requests, started, hstarted, ?_⟩
  intro turns hanswers found
  have hconcludes := concludes_drained hstarted hanswers
  obtain ⟨view, hview, hgathers⟩ := gathers_of_drained hstarted rfl hanswers
  have hprepared : Prepared _ found := (prepared_of_sent hstarted).keeps hconcludes.keeps
  have hstarts : found.Starts {} := by
    refine ⟨?_, fun hzero => absurd ?_ hsize⟩
    · rw [hprepared.query]
      exact hfilter
    · rwa [hprepared.surroundings] at hzero
  have hsorts : found.query.sorts = session.query.sorts := by
    rw [hprepared.query]
    rfl
  exact ⟨hconcludes.state, view, hview, fun wanted =>
    widens_of_gathers hview (hsorts ▸ hgathers) hstarts wanted _⟩

/-- A session with a local catalog, a site and a cache, that is to ask the catalog only. -/
def ofCatalogAndSite : Session :=
  (Session.create (.create "query" "Search")
    ⟨(Registry.create "home" true).register ⟨"site", .federatedSite, true⟩, 20, 1000,
      none⟩).setFederation .localCatalog

theorem missing_record_widens_search :
    let requests := ofCatalogAndSite.roundRequests {}
    let started := ofCatalogAndSite.sendRound {} requests
    let replies := requests.zipWith Arrival.mk
      [.ok ⟨[View.titled "a" "Record" none], []⟩, .ok ⟨[View.titled "b" "Copy" none], []⟩]
    let found := started.drained (replies.map .arrives)
    ofCatalogAndSite.startLocal = (.ok (.dispatched 1 requests), started) ∧
      (∃ tiered after, found.widen ["a", "b"] (.dispatched 1 requests) = (.ok tiered, after) ∧
        tiered.escalated = false ∧
        ∃ shown, after.view = some shown ∧ ∃ record ∈ shown.records, record.id = "b") ∧
      ∃ tiered after, found.widen ["a", "c"] (.dispatched 1 requests) = (.ok tiered, after) ∧
        tiered.escalated = true ∧
        ∀ reply, ∃ last, ([.arrives reply, .operate .poll].foldl meet after).view = some last := by
  intro requests started replies found
  have hlocal : ofCatalogAndSite.startLocal = (.ok (.dispatched 1 requests), started) :=
    start_eq_dispatched_iff.2 ⟨⟨by rfl, nofun⟩, rfl, by decide +kernel, rfl, rfl⟩
  have hcatalog : ofCatalogAndSite.registry.localCatalog ≠ Source.cacheId := by decide
  obtain ⟨others, other, hother, htiered⟩ :=
    @tiered_search_finds_or_widens ofCatalogAndSite rfl (by rfl) (by decide) hcatalog
  cases hother.symm.trans hlocal
  have hanswers : (repliesTo 1 (replies.map .arrives)).map Arrival.request = requests := by
    decide +kernel
  obtain ⟨-, view, -, hwidens⟩ := htiered (replies.map .arrives) (.of_eq hanswers)
  refine ⟨hlocal, ?_, ?_⟩
  · obtain ⟨tiered, after, hwiden, hspec⟩ := hwidens ["a", "b"]
    have hbrought : ¬∃ id ∈ ["a", "b"], ∀ reply ∈ repliesTo 1 (replies.map .arrives),
        brings id reply = false := by decide +kernel
    have hlocalOnly := Bool.eq_false_iff.2 fun h => hbrought (hspec.escalated.1 h)
    obtain ⟨shown, hshown, hrecords⟩ := hspec.found hlocalOnly
    exact ⟨tiered, after, hwiden, hlocalOnly, shown, hshown, hrecords "b" (by decide)⟩
  · obtain ⟨tiered, after, hwiden, hspec⟩ := hwidens ["a", "c"]
    have hmissing : ∀ reply ∈ repliesTo 1 (replies.map .arrives), brings "c" reply = false := by
      decide +kernel
    have hescalated := hspec.escalated.2 ⟨"c", by decide, hmissing⟩
    refine ⟨tiered, after, hwiden, hescalated, fun reply => ?_⟩
    obtain ⟨last, hlast, -⟩ := hspec.kept hescalated [.arrives reply, .operate .poll] <|
      List.forall_mem_cons.2 ⟨rfl, List.forall_mem_singleton.2 rfl⟩
    exact ⟨last, hlast⟩

end Session

end CatalogSearch
