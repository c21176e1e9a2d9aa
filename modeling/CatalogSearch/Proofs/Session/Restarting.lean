import CatalogSearch.Proofs.Session.Moves
import CatalogSearch.Proofs.Session.Sending

/-!
# Back to the first page

Whoever changes what is searched starts paging anew: every edit of the query brings
the tracker back to the first page, and only turning pages leads away from it.  The
two halves of a tiered search change the federation too, but leave the tracker as it
is, so that their rounds start where paging had got to.
-/

namespace CatalogSearch

/-- What a round is built from. -/
structure Basis where
  filter : Filter
  sorts : List SortKey
  federation : Federation
  sources : List String
deriving DecidableEq

def Session.basis (session : Session) : Basis :=
  ⟨session.query.filter, session.query.sorts, session.query.federation, session.query.sources⟩

namespace PageTracker

/-- The next round starts at the first record of every source. -/
def AtFirstPage (tracker : PageTracker) : Prop := tracker.next = .empty ∧ tracker.history = []

theorem atFirstPage_fresh : AtFirstPage fresh := ⟨rfl, rfl⟩

variable {tracker : PageTracker}

theorem AtFirstPage.beginRound (h : tracker.AtFirstPage) : tracker.beginRound.AtFirstPage := h

theorem AtFirstPage.startOf (h : tracker.AtFirstPage) (key : String) :
    tracker.beginRound.startOf key = 1 := by
  rw [PageTracker.startOf, PageTracker.beginRound, h.1, Offsets.get_empty]

theorem AtFirstPage.pageIndex (h : tracker.AtFirstPage) : tracker.beginRound.pageIndex = 0 := by
  rw [PageTracker.pageIndex, PageTracker.beginRound, h.2, List.length_nil]

end PageTracker

namespace Operation

/-- How the session that a search is run from differs from the one before: a tiered
search changes the federation only, and other searches change no more than the tracker. -/
theorem frame_of_search? {session before : Session} {operation : Operation}
    {options : SearchOptions} (h : operation.search? session = some (before, options)) :
    before.surroundings = session.surroundings ∧
      (operation.isTier = false → before.basis = session.basis) ∧
      (operation.turnsPage = false → before.tracker = session.tracker ∨
        operation.isTier = false ∧ before.tracker = .fresh) := by
  cases operation with
  | start =>
    cases h
    exact ⟨rfl, fun _ => rfl, fun _ => .inl rfl⟩
  | startFromFirstPage =>
    cases h
    exact ⟨rfl, fun _ => rfl, fun _ => .inr ⟨rfl, rfl⟩⟩
  | startIfOutdated =>
    simp only [search?, Option.ite_none_right_eq_some] at h
    cases h.2
    exact ⟨rfl, fun _ => rfl, fun _ => .inl rfl⟩
  | nextPage =>
    cases h
    refine ⟨rfl, fun _ => rfl, fun hturns => ?_⟩
    cases hturns
  | previousPage =>
    obtain ⟨tracker, -, h⟩ := Option.map_eq_some_iff.1 h
    cases h
    refine ⟨rfl, fun _ => rfl, fun hturns => ?_⟩
    cases hturns
  | startLocal =>
    cases h
    refine ⟨rfl, fun htier => ?_, fun _ => .inl rfl⟩
    cases htier
  | widen =>
    simp only [search?, Option.ite_none_left_eq_some, Option.bind_eq_some_iff] at h
    obtain ⟨-, view, -, -, h⟩ := h
    cases h
    refine ⟨rfl, fun htier => ?_, fun _ => .inl rfl⟩
    cases htier
  | _ => cases h

theorem atFirstPage_of_search? {session before : Session} {operation : Operation}
    {options : SearchOptions} (h : operation.search? session = some (before, options))
    (hturns : operation.turnsPage = false) (hfirst : session.tracker.AtFirstPage) :
    before.tracker.AtFirstPage := by
  obtain htracker | ⟨-, htracker⟩ := (frame_of_search? h).2.2 hturns
  · rwa [htracker]
  · rw [htracker]
    exact PageTracker.atFirstPage_fresh

end Operation

namespace Session

theorem basis_start (session : Session) (options : SearchOptions) :
    (sending (session.start options)).1.basis = session.basis := by
  by_cases h : session.Starts options
  · rw [basis, (prepared_start_of_starts h).query]
    rfl
  · rw [start_of_not_starts h]
    rfl

theorem atFirstPage_start {session : Session} (h : session.tracker.AtFirstPage)
    (options : SearchOptions) :
    (sending (session.start options)).1.tracker.AtFirstPage := by
  by_cases hstarts : session.Starts options
  · rw [(prepared_start_of_starts hstarts).tracker]
    exact h.beginRound
  · rw [start_of_not_starts hstarts]
    exact h

theorem Keeps.basis {session after : Session} (h : Keeps session after) :
    after.basis = session.basis := by
  rw [Session.basis, h.query, Session.basis]

end Session

namespace Operation

/-- An operation that runs no search either leaves alone what is searched and where
paging is, or it is an edit. -/
theorem frame_of_search?_eq_none {session : Session} {operation : Operation}
    (h : operation.search? session = none) :
    ((operation.run session).1.basis = session.basis ∧
        (operation.run session).1.tracker = session.tracker) ∨
      (operation.run session).1.tracker = .fresh := by
  cases hadjusts : operation.adjusts with
  | false =>
    have hkeeps := keeps_of_search?_eq_none hadjusts h
    exact .inl ⟨hkeeps.basis, hkeeps.tracker⟩
  | true =>
    cases operation with
    | setFilter | setSorts | setFederation | setSources | setSourcesFromRegistry
    | preferencesChanged => exact .inr rfl
    | setPageSize | setHook => exact .inl ⟨rfl, rfl⟩
    | _ => cases hadjusts

/-- Only turning a page leads away from the first one. -/
theorem atFirstPage_run {session : Session} {operation : Operation}
    (hturns : operation.turnsPage = false) (h : session.tracker.AtFirstPage) :
    (operation.run session).1.tracker.AtFirstPage := by
  cases hsearch : operation.search? session with
  | some search =>
    rw [run_of_search? hsearch]
    exact Session.atFirstPage_start (atFirstPage_of_search? hsearch hturns h) _
  | none =>
    obtain ⟨-, htracker⟩ | htracker := frame_of_search?_eq_none hsearch
    · rwa [htracker]
    · rw [htracker]
      exact PageTracker.atFirstPage_fresh

/-- An operation that changes what is searched starts paging anew, unless it is half of
a tiered search. -/
theorem atFirstPage_of_change {session : Session} {operation : Operation}
    (htier : operation.isTier = false)
    (h : (operation.run session).1.basis ≠ session.basis) :
    (operation.run session).1.tracker.AtFirstPage := by
  cases hsearch : operation.search? session with
  | some search =>
    rw [run_of_search? hsearch, Session.basis_start] at h
    exact absurd ((frame_of_search? hsearch).2.1 htier) h
  | none =>
    obtain ⟨hbasis, -⟩ | htracker := frame_of_search?_eq_none hsearch
    · exact absurd hbasis h
    · rw [htracker]
      exact PageTracker.atFirstPage_fresh

/-- Without a hook every request starts at the offset that was staged for its group when
its search was run. -/
theorem staged_of_mem_sent {session : Session} {operation : Operation}
    (hhook : session.surroundings.hook = none) {request : Request}
    (h : request ∈ (operation.run session).2) :
    ∃ before options, operation.search? session = some (before, options) ∧
      request.start = before.tracker.beginRound.startOf request.group.key ∧
      (operation.run session).1.tracker = before.tracker.beginRound := by
  cases hsearch : operation.search? session with
  | none =>
    rw [sent_of_search?_eq_none hsearch] at h
    cases h
  | some search =>
    obtain ⟨before, options⟩ := search
    have hhook' : before.surroundings.hook = none := by
      rw [(frame_of_search? hsearch).1]
      exact hhook
    rw [run_of_search? hsearch] at h ⊢
    have hstarts := Session.starts_of_mem_sent h
    rw [Session.sent_start_of_starts hstarts, Session.roundRequests_of_unhooked hhook'] at h
    exact ⟨before, options, rfl, Request.start_of_mem_split h,
      (Session.prepared_start_of_starts hstarts).tracker⟩

end Operation

namespace Traffic

variable {traffic : Traffic}

/-- All that a reply does to the session is to wait in its inbox. -/
theorem session_answer (traffic : Traffic) (call : Nat) (reply : Reply) :
    (traffic.answer call reply).session = traffic.session ∨
      ∃ arrival, (traffic.answer call reply).session = traffic.session.deliver arrival := by
  unfold answer
  split
  · exact .inl rfl
  · split
    · exact .inl rfl
    · exact .inr ⟨_, rfl⟩

theorem keeps_answer (traffic : Traffic) (call : Nat) (reply : Reply) :
    traffic.session.Keeps (traffic.answer call reply).session := by
  obtain hsession | ⟨arrival, hsession⟩ := session_answer traffic call reply <;> rw [hsession]
  · exact .refl _
  · exact ⟨rfl, rfl, rfl⟩

theorem atFirstPage_act (h : traffic.session.tracker.AtFirstPage) {action : Action}
    (hturns : ∀ operation, action = .operate operation → operation.turnsPage = false) :
    (traffic.act action).session.tracker.AtFirstPage := by
  cases action with
  | operate operation => exact Operation.atFirstPage_run (hturns operation rfl) h
  | answer call reply =>
    rw [act, (keeps_answer traffic call reply).tracker]
    exact h

theorem atFirstPage_actions (h : traffic.session.tracker.AtFirstPage) {actions : List Action}
    (hturns : ∀ operation, .operate operation ∈ actions → operation.turnsPage = false) :
    (traffic.run actions).session.tracker.AtFirstPage := by
  induction actions generalizing traffic with
  | nil => exact h
  | cons action actions ih =>
    apply ih
    · apply atFirstPage_act h
      rintro operation rfl
      exact hturns operation List.mem_cons_self
    · intro operation hoperation
      exact hturns operation (List.mem_cons_of_mem _ hoperation)

/-- A change of what is searched starts paging anew, whatever happened before and
whatever follows but turning a page: every request of a round that is sent then starts
at the first record, on the first page.  The exception are the two halves of a tiered
search: whatever they change, their requests start where paging had got to, and the
page stays the same. -/
theorem paging_restarts (traffic : Traffic) :
    (∀ (change last : Operation) (later : List Action),
      change.isTier = false →
      (traffic.act (.operate change)).session.basis ≠ traffic.session.basis →
      (∀ operation, .operate operation ∈ later → operation.turnsPage = false) →
      last.turnsPage = false →
      let before := ((traffic.act (.operate change)).run later).session
      before.surroundings.hook = none →
      ∀ request ∈ (last.run before).2,
        request.start = 1 ∧ (last.run before).1.tracker.pageIndex = 0) ∧
    (∀ half : Operation, half.isTier = true → traffic.session.surroundings.hook = none →
      ∀ request ∈ (half.run traffic.session).2,
        request.start = traffic.session.tracker.next.get request.group.key ∧
          (half.run traffic.session).1.tracker.pageIndex = traffic.session.tracker.pageIndex) := by
  constructor
  · intro change last later htier hchange hturns hlast before hhook request hrequest
    have hfirst : before.tracker.AtFirstPage :=
      atFirstPage_actions (Operation.atFirstPage_of_change htier hchange) hturns
    obtain ⟨session, options, hsearch, hstart, htracker⟩ :=
      Operation.staged_of_mem_sent hhook hrequest
    have hsession := Operation.atFirstPage_of_search? hsearch hlast hfirst
    rw [hstart, htracker]
    exact ⟨hsession.startOf _, hsession.pageIndex⟩
  · intro half htier hhook request hrequest
    obtain ⟨session, options, hsearch, hstart, htracker⟩ :=
      Operation.staged_of_mem_sent hhook hrequest
    have hturns : half.turnsPage = false := by
      cases half <;> first | rfl | cases htier
    obtain hsame | ⟨hother, -⟩ := (Operation.frame_of_search? hsearch).2.2 hturns
    · rw [hstart, htracker, hsame]
      exact ⟨rfl, rfl⟩
    · rw [htier] at hother
      cases hother

/-- Page two of a search of the local catalog, with three records, and a site with one. -/
def pageTwo : Traffic :=
  let report (id : String) (hits count : UInt64) : Reply :=
    .ok ⟨[], [⟨id, some hits, some count, none, none, []⟩]⟩
  let page (call : Nat) (home site : UInt64) : List Action :=
    [.answer call (report "home" 3 home), .answer (call + 1) (report "site" 1 site),
      .operate .poll]
  (Traffic.create (Session.create (.create "query" "Search")
    ⟨(Registry.create "home" false).register ⟨"site", .federatedSite, true⟩, 2, 1000, none⟩)).run
      ([.operate (.start {})] ++ page 0 2 1 ++ [.operate .nextPage] ++ page 2 1 0)

theorem narrowed_search_restarts :
    let narrow := Operation.setFederation .localCatalog
    let before := (pageTwo.act (.operate narrow)).session
    pageTwo.session.tracker.pageIndex = 1 ∧ before.basis ≠ pageTwo.session.basis ∧
      ∃ request ∈ ((Operation.start {}).run before).2,
        request.start = 1 ∧
          ((Operation.start {}).run before).1.tracker.pageIndex = 0 := by
  intro narrow before
  have hbasis : before.basis ≠ pageTwo.session.basis := by decide +kernel
  have hsent : ((Operation.start {}).run before).2 ≠ [] := by decide +kernel
  obtain ⟨request, hrequest⟩ := List.exists_mem_of_ne_nil _ hsent
  obtain ⟨hrestarts, -⟩ := paging_restarts pageTwo
  exact ⟨by decide +kernel, hbasis, request, hrequest,
    hrestarts narrow (.start {}) [] rfl hbasis nofun rfl (by decide +kernel) request hrequest⟩

/-- A tiered search after page two asks the local catalog only, which is not what the
round before asked, and yet not from its first record. -/
theorem tiered_search_keeps_offsets :
    let tiered := Operation.startLocal.run pageTwo.session
    pageTwo.session.round = none ∧ pageTwo.session.surroundings.hook.isNone = true ∧
      tiered.1.basis ≠ pageTwo.session.basis ∧
      (∃ request ∈ tiered.2, request.start ≠ 1) ∧ tiered.1.tracker.pageIndex ≠ 0 := by
  decide +kernel

end Traffic

end CatalogSearch
