import CatalogSearch.Proofs.Session.ForwardPaging
import CatalogSearch.Proofs.Session.MergeChoice
import CatalogSearch.Proofs.Session.Widening
import Mathlib.Data.List.Flatten

/-!
# A page in view

While the replies to a page come in from an archive, a view that merges on arrival shows the
records of those that were applied.  Once the round has settled it shows what the page has of
all groups together, each record once.
-/

namespace CatalogSearch

/-- The records that are in view, if there is a view. -/
def Session.records (session : Session) : List Result := (session.view.map View.records).getD []

namespace View

/-- A view that has merged all that arrived, and shows the records of some ids, each once. -/
structure Displays (view : View) (ids : String → Prop) : Prop where
  merges : Session.Merges view
  distinct : view.Distinct
  contains : ∀ id, view.contains id = true ↔ ids id

namespace Displays

open Session

variable {view : View} {ids : String → Prop}

theorem congr (h : view.Displays ids) {others : String → Prop} (hsame : ∀ id, others id ↔ ids id) :
    view.Displays others :=
  ⟨h.merges, h.distinct, fun id => (h.contains id).trans (hsame id).symm⟩

/-- A reply that is taken in adds the ids of its records. -/
theorem viewAfter (h : view.Displays ids) (arrival : Arrival) :
    (viewAfter view arrival).Displays fun id => ids id ∨ brings id arrival = true where
  merges := h.merges.viewAfter arrival
  distinct := distinct_viewAfter h.distinct arrival
  contains id := by
    rw [contains_viewAfter h.merges, Bool.or_eq_true]
    exact or_congr (h.contains id) Iff.rfl

/-- A view begins a round without seeds empty. -/
theorem restart (view : View) (sorts : List SortKey) (hmerges : view.autoMerge = true) :
    (view.restart sorts []).Displays fun _ => False where
  merges := ⟨hmerges, queue_restart view sorts []⟩
  distinct := (gathers_restart view sorts).distinct
  contains id := by
    have hrecords : (view.restart sorts []).records = [] := (arrange_perm sorts []).eq_nil
    rw [View.contains, hrecords]
    exact Iff.of_eq (Bool.false_eq_true.trans rfl)

/-- A view that shows the ids of some records, of which no two share one, shows as many. -/
theorem map_id_perm {items : List Answer.Item}
    (h : view.Displays fun id => ∃ item ∈ items, item.metacard.id? = some id)
    (hnamed : ∀ item ∈ items, item.metacard.id? ≠ none)
    (hnodup : (items.map fun item => item.metacard.id?).Nodup) :
    (view.records.map fun record => some record.id).Perm
      (items.map fun item => item.metacard.id?) := by
  have hdistinct : (view.records.map fun record => some record.id).Nodup := by
    have hids := h.distinct.map (Option.some_injective String)
    rwa [List.map_map] at hids
  refine (List.perm_ext_iff_of_nodup hdistinct hnodup).2 fun id? => ?_
  cases id? with
  | none => simpa using hnamed
  | some id =>
    have hcontains := h.contains id
    rw [View.contains, List.any_eq_true] at hcontains
    simpa using hcontains

end Displays

end View

namespace Archive

/-- Whether a request asks for a record of an id. -/
def Covers (archive : Archive) (request : Request) (id : String) : Prop :=
  ∃ item ∈ archive.slice request, item.metacard.id? = some id

theorem brings_iff_covers {archive : Archive} {arrival : Arrival}
    (h : archive.Honest arrival.request arrival.reply) (hcache : arrival.request.group ≠ .cache)
    (id : String) : Session.brings id arrival = true ↔ archive.Covers arrival.request id := by
  obtain ⟨answer, hreply, hanswers⟩ := h.answers hcache
  rw [Session.brings, hreply, Covers, ← hanswers.items]
  simp

/-- The records of all groups have ids, and no two of them the same. -/
structure Identified (archive : Archive) (first : Session) : Prop where
  named : ∀ group ∈ first.sourceGroups, ∀ item ∈ archive.records group, item.metacard.id? ≠ none
  distinct : ((first.sourceGroups.flatMap archive.records).map fun item =>
    item.metacard.id?).Nodup

/-- The records that a page has of all groups. -/
def pageItems (archive : Archive) (first : Session) (page : Nat) : List Answer.Item :=
  first.sourceGroups.flatMap fun group =>
    ((archive.records group).drop (page * first.perPage)).take first.perPage

/-- How many records a page has of all groups. -/
def visible (archive : Archive) (first : Session) (page : Nat) : Nat :=
  (first.sourceGroups.map fun group =>
    min first.perPage ((archive.records group).length - page * first.perPage)).sum

variable {archive : Archive} {first : Session}

theorem length_pageItems (archive : Archive) (first : Session) (page : Nat) :
    (archive.pageItems first page).length = archive.visible first page := by
  rw [pageItems, visible, List.length_flatMap]
  simp only [List.length_take, List.length_drop]

theorem pageItems_sublist (archive : Archive) (first : Session) (page : Nat) :
    (archive.pageItems first page).Sublist (first.sourceGroups.flatMap archive.records) :=
  List.Sublist.flatMap_right _ fun _ _ => (List.take_sublist _ _).trans (List.drop_sublist _ _)

/-- A view that shows the ids of a page shows its records. -/
theorem Identified.map_id_perm (h : archive.Identified first) {page : Nat} {view : View}
    (hview : view.Displays fun id =>
      ∃ item ∈ archive.pageItems first page, item.metacard.id? = some id) :
    (view.records.map fun record => some record.id).Perm
      ((archive.pageItems first page).map fun item => item.metacard.id?) := by
  have hsublist := archive.pageItems_sublist first page
  refine hview.map_id_perm (fun item hitem => ?_) (h.distinct.sublist (hsublist.map _))
  obtain ⟨group, hgroup, hmem⟩ := List.mem_flatMap.1 (hsublist.subset hitem)
  exact h.named group hgroup item hmem

end Archive

/-! ## While the replies come in -/

namespace Operation

open Session

/-- A search without seeds begins with nothing in view. -/
theorem exists_view_of_search? {session before : Session} {operation : Operation}
    {options : SearchOptions} (hsearch : operation.search? session = some (before, options))
    (hstarts : before.Starts options) (hseeds : options.seedResults = [])
    (hmerges : before.merging? ≠ some false) :
    ∃ view, (operation.run session).1.view = some view ∧ view.Displays fun _ => False := by
  have hview := view_dispatch before options
  have hrun : (operation.run session).1 = (before.refreshed.cancel.dispatch options).2 := by
    rw [run_of_search? hsearch, start_of_starts hstarts]
    rfl
  rw [← hrun, hseeds] at hview
  refine ⟨_, hview, .restart _ before.query.sorts ?_⟩
  have hcancel : before.refreshed.cancel.merging? = before.merging? :=
    merging?_cancel before.refreshed
  rw [← hcancel, merging?] at hmerges
  cases hbefore : before.refreshed.cancel.view with
  | none => rfl
  | some view =>
    rw [hbefore] at hmerges
    simpa using hmerges

end Operation

namespace Traffic

variable {archive : Archive} {replies : Nat → Reply} {first : Session} {page : Nat}
  {traffic begun next after : Traffic} {requests : List Request}

/-- The ids of the records that the replies to the last round brought so far. -/
def Brought (archive : Archive) (traffic : Traffic) (id : String) : Prop :=
  ∃ call ∈ traffic.applied, ∃ request, traffic.Latest call request ∧ archive.Covers request id

/-- What the view shows while the replies to a round come in. -/
structure Filling (archive : Archive) (replies : Nat → Reply) (begun traffic : Traffic) : Prop
    extends Reading archive replies begun traffic where
  view : ∃ view, traffic.session.view = some view ∧ view.Displays (Brought archive traffic)

namespace Filling

theorem apply (h : Filling archive replies begun traffic) (hapart : Apart begun)
    (hcache : ∀ call request, begun.Latest call request → request.group ≠ .cache)
    {entry : Nat × Arrival} {rest : List (Nat × Arrival)} (hqueue : traffic.queue = entry :: rest)
    (hcurrent : isCurrent traffic.session entry.2 = true) :
    Filling archive replies begun
      { traffic with
        session := (traffic.session.apply entry.2).withInbox (rest.map Prod.snd)
        queue := rest
        applied := traffic.applied ++ [entry.1] } where
  toReading := h.toReading.apply hapart hqueue hcurrent
  view := by
    obtain ⟨call, arrival⟩ := entry
    obtain ⟨hlatest, -, hhonest⟩ := h.toReading.head_of_current hqueue hcurrent
    obtain ⟨view, hview, hdisplays⟩ := h.view
    have hbrings := Archive.brings_iff_covers hhonest
      (hcache call arrival.request (h.toReading.latest_iff.1 hlatest))
    have hrounds : ((traffic.session.apply arrival).withInbox (rest.map Prod.snd)).rounds =
        traffic.session.rounds := Session.rounds_apply traffic.session arrival
    refine ⟨Session.viewAfter view arrival, ?_, (hdisplays.viewAfter arrival).congr fun id => ?_⟩
    · change (traffic.session.apply arrival).view = _
      rw [Session.view_apply, hview, Option.map_some]
    · simp only [Brought, Latest, hrounds, List.mem_append, List.mem_singleton, or_and_right,
        exists_or, exists_eq_left]
      refine or_congr Iff.rfl ?_
      rw [hbrings]
      constructor
      · rintro ⟨request, ⟨hcall, -⟩, hcovers⟩
        rwa [Option.some.inj (hlatest.1.symm.trans hcall)]
      · exact fun hcovers => ⟨arrival.request, hlatest, hcovers⟩

theorem persists (hapart : Apart begun)
    (hcache : ∀ call request, begun.Latest call request → request.group ≠ .cache) :
    Persists archive replies (Filling archive replies begun) where
  coherent h := h.coherent
  receive h hcall hnew hreply := ⟨h.toReading.receive hcall hnew hreply, h.view⟩
  drop h hqueue hcurrent := ⟨h.toReading.drop hqueue hcurrent, h.view⟩
  apply h := h.apply hapart hcache

end Filling

/-! ## The page -/

namespace Begun

/-- Without a cache, the requests of a page ask for what it has of the groups. -/
theorem flatMap_slice (h : Begun archive first page traffic next requests)
    (hcache : first.registry.cacheEnabled = false) :
    requests.flatMap archive.slice = archive.pageItems first page := by
  obtain ⟨base, rfl, hcount⟩ := h.split
  rw [Request.split_eq, hcache, Bool.false_and, if_neg Bool.false_ne_true, List.append_nil,
    List.flatMap_map]
  exact List.flatMap_congr fun group hgroup => h.slice_forGroup hcount hgroup _

theorem group_ne_cache (h : Begun archive first page traffic next requests)
    (hcache : first.registry.cacheEnabled = false) {request : Request} (hmem : request ∈ requests) :
    request.group ≠ .cache := by
  obtain ⟨base, rfl, -⟩ := h.split
  rw [Request.split_eq, hcache, Bool.false_and, if_neg Bool.false_ne_true, List.append_nil] at hmem
  obtain ⟨group, hgroup, rfl⟩ := List.mem_map.1 hmem
  exact Registry.ne_cache_of_mem_sourceGroups hgroup

/-- Nothing was brought yet when the page was sent. -/
theorem not_brought (h : Begun archive first page traffic next requests) (hc : Coherent traffic)
    (id : String) : ¬Brought archive next id := by
  rintro ⟨call, happlied, request, hlatest, -⟩
  obtain ⟨index, rfl, -⟩ := h.latest_iff.1 hlatest
  rw [h.applied] at happlied
  exact absurd (hc.applied_lt happlied) (Nat.not_lt.2 (Nat.le_add_right _ _))

theorem brought_iff (h : Begun archive first page traffic next requests)
    (hcache : first.registry.cacheEnabled = false) (hreading : Reading archive replies next after)
    (hover : after.session.round = none) (id : String) :
    Brought archive after id ↔
      ∃ item ∈ archive.pageItems first page, item.metacard.id? = some id := by
  rw [← h.flatMap_slice hcache]
  constructor
  · rintro ⟨call, -, request, hlatest, item, hitem, hid⟩
    obtain ⟨index, -, hindex⟩ := h.latest_iff.1 (hreading.latest_iff.1 hlatest)
    exact ⟨item, List.mem_flatMap.2 ⟨request, List.mem_of_getElem? hindex, hitem⟩, hid⟩
  · rintro ⟨item, hmem, hid⟩
    obtain ⟨request, hrequest, hitem⟩ := List.mem_flatMap.1 hmem
    obtain ⟨index, hindex⟩ := List.mem_iff_getElem?.1 hrequest
    have hlatest : after.Latest (traffic.sent.length + index) request :=
      hreading.latest_iff.2 (h.latest_iff.2 ⟨index, rfl, hindex⟩)
    exact ⟨_, hreading.settled hover _ request hlatest, request, hlatest, item, hitem, hid⟩

/-- Once its round has settled, the page is in view. -/
theorem displays (h : Begun archive first page traffic next requests)
    (hfirst : first.Readable archive) (hcache : first.registry.cacheEnabled = false)
    (hc : Coherent traffic) (hcoherent : Coherent next)
    (hview : ∃ view, next.session.view = some view ∧ view.Displays fun _ => False)
    (hexchanges : Exchanges archive replies next after) (hover : after.session.round = none) :
    ∃ view, after.session.view = some view ∧ view.Displays fun id =>
      ∃ item ∈ archive.pageItems first page, item.metacard.id? = some id := by
  have hbegun : Filling archive replies next next := by
    obtain ⟨view, hsome, hdisplays⟩ := hview
    refine ⟨h.reading hc hcoherent, view, hsome, hdisplays.congr fun id => ?_⟩
    exact iff_of_false (h.not_brought hc id) not_false
  have hgroups : ∀ call request, next.Latest call request → request.group ≠ .cache := by
    intro call request hlatest
    obtain ⟨index, -, hindex⟩ := h.latest_iff.1 hlatest
    exact h.group_ne_cache hcache (List.mem_of_getElem? hindex)
  have hfilling := (Filling.persists (h.apart hfirst) hgroups).exchanges hexchanges hbegun
  obtain ⟨view, hsome, hdisplays⟩ := hfilling.view
  exact ⟨view, hsome, hdisplays.congr fun id =>
    (h.brought_iff hcache hfilling.toReading hover id).symm⟩

end Begun

end Traffic

end CatalogSearch
