import CatalogSearch.Proofs.Session.Page
import CatalogSearch.Proofs.Session.Restarting

/-!
# Going back

The tracker keeps the offsets of every page up to the staged one.  What comes in
decides where a page begins when it is turned to for the first time, and never again,
so whoever goes back reads what was read before, until there is no page before.
-/

namespace CatalogSearch

/-! ## Pages of a tracker -/

namespace PageTracker

/-- The offsets of a page up to the staged one, by its index. -/
def page? (tracker : PageTracker) (index : Nat) : Option Offsets :=
  (tracker.next :: tracker.history).reverse[index]?

variable {tracker before after : PageTracker}

theorem page?_pageIndex (tracker : PageTracker) :
    tracker.page? tracker.pageIndex = some tracker.next := by
  rw [page?, pageIndex, List.reverse_cons, ← List.length_reverse, List.getElem?_concat_length]

theorem page?_of_lt {index : Nat} (h : index < tracker.pageIndex) :
    tracker.page? index = tracker.history.reverse[index]? := by
  rw [page?, List.reverse_cons, List.getElem?_append_left (by rwa [List.length_reverse])]

theorem le_of_page?_eq_some {index : Nat} {offsets : Offsets}
    (h : tracker.page? index = some offsets) : index ≤ tracker.pageIndex := by
  obtain ⟨hlength, -⟩ := List.getElem?_eq_some_iff.1 h
  rw [List.length_reverse, List.length_cons] at hlength
  exact Nat.le_of_lt_succ hlength

/-- The pages before the staged one are those that there were. -/
def Retains (before after : PageTracker) : Prop :=
  ∀ index < after.pageIndex, after.page? index = before.page? index

theorem Retains.of_eq {between : PageTracker} (h : before.Retains between)
    (hnext : after.next = between.next) (hhistory : after.history = between.history) :
    before.Retains after := by
  intro index hindex
  rw [pageIndex, hhistory] at hindex
  rw [page?, hnext, hhistory]
  exact h index hindex

theorem retains_advance (tracker : PageTracker) (selected : List String) (registry : Registry)
    (board : StatusBoard) : tracker.Retains (tracker.advance selected registry board) :=
  fun _ hindex => page?_of_lt hindex

theorem page?_retreat? (h : before.retreat? = some after) {index : Nat}
    (hindex : index ≤ after.pageIndex) : after.page? index = before.page? index := by
  unfold retreat? at h
  split at h
  · cases h
  · rename_i previous earlier hhistory
    cases h
    have hbefore : index < before.pageIndex := by
      rw [pageIndex, hhistory]
      exact Nat.lt_succ_of_le hindex
    rw [page?_of_lt hbefore, hhistory]
    rfl

theorem retains_retreat? (h : before.retreat? = some after) : before.Retains after :=
  fun _ hindex => page?_retreat? h (Nat.le_of_lt hindex)

theorem pageIndex_retreat? (h : before.retreat? = some after) :
    after.pageIndex + 1 = before.pageIndex := by
  unfold retreat? at h
  split at h
  · cases h
  · rename_i previous earlier hhistory
    cases h
    rw [pageIndex, pageIndex, hhistory]
    rfl

theorem retreat?_eq_none_iff : tracker.retreat? = none ↔ tracker.pageIndex = 0 := by
  unfold retreat?
  split <;> simp_all [pageIndex]

end PageTracker

/-! ## What a search reads -/

namespace Session

variable {first session : Session}

/-- What a search reads that begins at some offsets. -/
def placesAt (session : Session) (offsets : Offsets) : List Place :=
  if session.query.filter.isEmpty then []
  else session.registry.placesAt session.selectedSources offsets

/-- Whether anything is read does not depend on where it begins. -/
theorem placesAt_eq_nil_iff (session : Session) (offsets other : Offsets) :
    session.placesAt offsets = [] ↔ session.placesAt other = [] := by
  unfold placesAt
  split
  · exact Iff.rfl
  · rw [Registry.placesAt, List.map_eq_nil_iff, Registry.placesAt, List.map_eq_nil_iff]

theorem Continues.placesAt (h : first.Continues session) (offsets : Offsets) :
    session.placesAt offsets = first.placesAt offsets := by
  rw [Session.placesAt, h.filter, h.registry, h.selected, Session.placesAt]

theorem Continues.trans {between : Session} (h : first.Continues between)
    (hrest : between.Continues session) : first.Continues session :=
  ⟨hrest.surroundings.trans h.surroundings, hrest.filter.trans h.filter,
    hrest.selected.trans h.selected⟩

theorem Continues.of_basis (hsurroundings : session.surroundings = first.surroundings)
    (hbasis : session.basis = first.basis) : first.Continues session := by
  have hfederation : session.query.federation = first.query.federation :=
    congrArg Basis.federation hbasis
  have hsources : session.query.sources = first.query.sources := congrArg Basis.sources hbasis
  have hregistry : session.registry = first.registry :=
    congrArg Surroundings.registry hsurroundings
  refine ⟨hsurroundings, congrArg Basis.filter hbasis, ?_⟩
  rw [selectedSources, Query.selectedSources, hfederation, hsources, hregistry]
  rfl

theorem starts_iff (hsize : session.surroundings.pageSize ≠ 0) (options : SearchOptions) :
    session.Starts options ↔ session.query.filter.isEmpty = false :=
  and_iff_left fun hzero => absurd hzero hsize

/-- A search reads the staged page, whatever its options are. -/
theorem places_start (hhook : session.surroundings.hook = none)
    (hsize : session.surroundings.pageSize ≠ 0) (options : SearchOptions) :
    (sending (session.start options)).2.map Request.place =
      session.placesAt session.tracker.next := by
  by_cases hstarts : session.Starts options
  · rw [sent_start_of_starts hstarts, roundRequests_of_unhooked hhook, Request.map_place_split,
      placesAt, (starts_iff hsize options).1 hstarts]
    rfl
  · rw [start_of_not_starts hstarts, placesAt, if_pos]
    · rfl
    · rw [starts_iff hsize, Bool.not_eq_false] at hstarts
      exact hstarts

theorem continues_start (session : Session) (options : SearchOptions) :
    session.Continues (session.start options).2 := by
  by_cases hstarts : session.Starts options
  · exact (Continues.refl session).prepared (prepared_start_of_starts hstarts)
  · have hrefused : (session.start options).2 = session.refreshed :=
      congrArg Prod.fst (start_of_not_starts hstarts)
    rw [hrefused]
    exact ⟨rfl, rfl, rfl⟩

/-- What is sent was dispatched. -/
theorem exists_dispatched {searched : Searched} (h : (sending searched).2 ≠ []) :
    ∃ round, searched.1 = .ok (.dispatched round (sending searched).2) := by
  obtain ⟨fault | outcome, after⟩ := searched
  · exact absurd rfl h
  · cases outcome with
    | dispatched round requests => exact ⟨round, rfl⟩
    | emptyFilter | nothingToRun | noPreviousPage => exact absurd rfl h

/-- With a page size a search comes to something, and never to the lack of a page. -/
theorem exists_start_eq_ok (hsize : session.surroundings.pageSize ≠ 0) (options : SearchOptions) :
    ∃ outcome, (session.start options).1 = .ok outcome ∧ outcome ≠ .noPreviousPage := by
  rw [start_eq]
  split
  · exact ⟨_, rfl, nofun⟩
  · rw [if_neg (by simp [hsize]), dispatch]
    split
    · exact ⟨_, rfl, nofun⟩
    · exact ⟨_, rfl, nofun⟩

/-- Going back reads a page that the tracker has kept, if there is one before. -/
theorem previousPage_of_pos (hhook : session.surroundings.hook = none)
    (hsize : session.surroundings.pageSize ≠ 0) (hindex : session.tracker.pageIndex ≠ 0) :
    (∃ outcome, session.previousPage.1 = .ok outcome ∧ outcome ≠ .noPreviousPage) ∧
      session.previousPage.2.tracker.pageIndex + 1 = session.tracker.pageIndex ∧
      ∃ offsets, session.tracker.page? session.previousPage.2.tracker.pageIndex = some offsets ∧
        (sending session.previousPage).2.map Request.place = session.placesAt offsets := by
  obtain ⟨tracker, hretreat⟩ := Option.ne_none_iff_exists'.1
    (mt PageTracker.retreat?_eq_none_iff.1 hindex)
  let before : Session := { session with tracker }
  have hback : session.previousPage = before.start {} := previousPage_of_some hretreat
  have hpage : (before.start {}).2.tracker.pageIndex = tracker.pageIndex :=
    congrArg List.length (history_start before {})
  rw [hback, hpage, ← PageTracker.page?_retreat? hretreat (Nat.le_refl _)]
  have hhook' : before.surroundings.hook = none := hhook
  have hsize' : before.surroundings.pageSize ≠ 0 := hsize
  exact ⟨exists_start_eq_ok hsize' {}, PageTracker.pageIndex_retreat? hretreat, tracker.next,
    tracker.page?_pageIndex, places_start hhook' hsize' {}⟩

theorem previousPage_eq_noPreviousPage_iff (hhook : session.surroundings.hook = none)
    (hsize : session.surroundings.pageSize ≠ 0) :
    session.previousPage.1 = .ok .noPreviousPage ↔ session.tracker.pageIndex = 0 := by
  constructor
  · intro hnone
    by_contra hindex
    obtain ⟨⟨outcome, hok, hsome⟩, -⟩ := previousPage_of_pos hhook hsize hindex
    rw [hok] at hnone
    exact hsome (Except.ok.inj hnone)
  · intro hindex
    rw [previousPage_of_none (PageTracker.retreat?_eq_none_iff.2 hindex)]

end Session

/-! ## Browsing -/

/-- Whether an operation leaves alone what is searched, by whom, and from where on, but
for turning pages. -/
def Operation.browses : Operation → Bool
  | start _ | startIfOutdated | nextPage | previousPage | cancel | clearResults | setAutoMerge _
  | mergeResults | nextUpdate | poll => true
  | _ => false

namespace Action

/-- Whether an action is browsing, or a reply that comes in. -/
def browses : Action → Bool
  | .operate operation => operation.browses
  | .answer _ _ => true

/-- How many turns to a next page are unmatched by one back, after an action. -/
def unmatchedAfter (unmatched : Nat) : Action → Nat
  | .operate .nextPage => unmatched + 1
  | .operate .previousPage => unmatched - 1
  | _ => unmatched

/-- How many turns to a next page a run leaves unmatched by one back. -/
def unmatched (actions : List Action) : Nat := actions.foldl unmatchedAfter 0

/-- Whether an action goes back to the previous page. -/
def goesBack : Action → Bool
  | .operate .previousPage => true
  | _ => false

/-- Whether an action goes on to the next page. -/
def goesOn : Action → Bool
  | .operate .nextPage => true
  | _ => false

variable {action : Action}

theorem unmatchedAfter_of_goesOn_eq_false (h : action.goesOn = false) (unmatched : Nat) :
    unmatchedAfter unmatched action = unmatched - if action.goesBack then 1 else 0 := by
  unfold unmatchedAfter
  split
  · cases h
  · rfl
  · rename_i hback
    rw [goesBack.eq_2 action hback]
    rfl

/-- Actions that turn no page forward only match the turns that are unmatched. -/
theorem unmatched_append (actions : List Action) {later : List Action}
    (hlater : ∀ action ∈ later, action.goesOn = false) :
    unmatched (actions ++ later) = unmatched actions - later.countP goesBack := by
  rw [unmatched, List.foldl_append, ← unmatched]
  generalize unmatched actions = count
  induction later generalizing count with
  | nil => rfl
  | cons action later ih =>
    obtain ⟨hfirst, hrest⟩ := List.forall_mem_cons.1 hlater
    rw [List.foldl_cons, ih hrest, unmatchedAfter_of_goesOn_eq_false hfirst, List.countP_cons,
      Nat.sub_sub, Nat.add_comm]

end Action

namespace Operation

variable {session before : Session} {operation : Operation} {options : SearchOptions}

theorem adjusts_of_browses (h : operation.browses = true) : operation.adjusts = false := by
  cases operation <;> first | rfl | cases h

theorem isTier_of_browses (h : operation.browses = true) : operation.isTier = false := by
  cases operation <;> first | rfl | cases h

theorem continues_of_search? (hbrowses : operation.browses = true)
    (h : operation.search? session = some (before, options)) : session.Continues before := by
  obtain ⟨hsurroundings, hbasis, -⟩ := frame_of_search? h
  exact .of_basis hsurroundings (hbasis (isTier_of_browses hbrowses))

theorem continues_run (hbrowses : operation.browses = true) :
    session.Continues (operation.run session).1 := by
  cases hsearch : operation.search? session with
  | some search =>
    rw [run_of_search? hsearch]
    exact (continues_of_search? hbrowses hsearch).trans (Session.continues_start _ _)
  | none =>
    exact (Session.Continues.refl session).keeps
      (keeps_of_search?_eq_none (adjusts_of_browses hbrowses) hsearch)

/-- Of the pages before the one that a search starts from, there is none that is new. -/
theorem retains_of_search? (h : operation.search? session = some (before, options)) :
    session.tracker.Retains before.tracker := by
  cases hturns : operation.turnsPage with
  | false =>
    obtain htracker | ⟨-, htracker⟩ := (frame_of_search? h).2.2 hturns
    · rw [htracker]
      exact fun _ _ => rfl
    · rw [htracker]
      exact fun _ hindex => absurd hindex (Nat.not_lt_zero _)
  | true =>
    cases operation with
    | nextPage =>
      cases h
      exact PageTracker.retains_advance _ _ _ _
    | previousPage =>
      obtain ⟨tracker, htracker, h⟩ := Option.map_eq_some_iff.1 h
      cases h
      exact PageTracker.retains_retreat? htracker
    | _ => cases hturns

/-- A search of someone who browses reads the page that is staged then. -/
theorem places_run (hhook : session.surroundings.hook = none)
    (hsize : session.surroundings.pageSize ≠ 0) (hbrowses : operation.browses = true)
    (h : operation.search? session = some (before, options)) :
    (operation.run session).2.map Request.place =
        session.placesAt (operation.run session).1.tracker.next ∧
      session.tracker.Retains (operation.run session).1.tracker := by
  have hbefore := continues_of_search? hbrowses h
  have hretains := retains_of_search? h
  rw [run_of_search? h]
  constructor
  · rw [← hbefore.surroundings] at hhook hsize
    rw [Session.places_start hhook hsize, hbefore.placesAt, ← Session.next_start before options]
    rfl
  · exact hretains.of_eq (Session.next_start before options) (Session.history_start before options)

/-- The index of the page counts the turns that are unmatched. -/
theorem pageIndex_run (hbrowses : operation.browses = true) :
    (operation.run session).1.tracker.pageIndex =
      Action.unmatchedAfter session.tracker.pageIndex (.operate operation) := by
  cases operation with
  | start options => exact congrArg List.length (Session.history_start session options)
  | startIfOutdated =>
    rw [run_startIfOutdated]
    split
    · exact congrArg List.length (Session.history_start session {})
    · rfl
  | nextPage => exact congrArg List.length (Session.history_start _ {})
  | previousPage =>
    cases hretreat : session.tracker.retreat? with
    | none =>
      simp only [run, Session.previousPage_of_none hretreat]
      simp [Session.sending, Action.unmatchedAfter, PageTracker.retreat?_eq_none_iff.1 hretreat]
    | some tracker =>
      simp only [run, Session.previousPage_of_some hretreat]
      rw [Action.unmatchedAfter, ← PageTracker.pageIndex_retreat? hretreat]
      exact congrArg List.length (Session.history_start { session with tracker } {})
  | cancel | clearResults | setAutoMerge | mergeResults | nextUpdate | poll =>
    exact congrArg PageTracker.pageIndex (keeps_of_search?_eq_none (by rfl) (by rfl)).tracker
  | _ => cases hbrowses

end Operation

namespace Traffic

/-- A round that was sent, with the index of the page that it reads. -/
structure Dispatch where
  page : Nat
  requests : List Request

/-- What an action sends, if it sends a round. -/
def dispatched (traffic : Traffic) : Action → List Dispatch
  | .operate operation =>
    let after := operation.run traffic.session
    if after.2 = [] then [] else [⟨after.1.tracker.pageIndex, after.2⟩]
  | .answer _ _ => []

/-- The rounds that a run sends, the latest first. -/
def rounds (traffic : Traffic) : List Action → List Dispatch
  | [] => []
  | action :: actions => (traffic.act action).rounds actions ++ traffic.dispatched action

/-- The latest of some rounds that reads a page. -/
def latest? (page : Nat) (rounds : List Dispatch) : Option Dispatch :=
  rounds.find? fun round => round.page == page

variable {traffic : Traffic}

theorem rounds_concat (traffic : Traffic) (actions : List Action) (action : Action) :
    traffic.rounds (actions ++ [action]) =
      (traffic.run actions).dispatched action ++ traffic.rounds actions := by
  induction actions generalizing traffic with
  | nil => simp [rounds, run]
  | cons other actions ih =>
    rw [List.cons_append, rounds, ih, List.append_assoc, rounds]
    rfl

/-- What ties the rounds so far to the tracker: of each page up to the staged one, the latest
round has read what the tracker keeps of it. -/
structure Retraces (first : Session) (traffic : Traffic) (rounds : List Dispatch) : Prop where
  continues : first.Continues traffic.session
  rereads : ∀ index offsets, traffic.session.tracker.page? index = some offsets →
    ∀ round, latest? index rounds = some round →
      round.requests.map Request.place = first.placesAt offsets
  /-- If a round was sent, every search sends one. -/
  sends : rounds ≠ [] → ∀ offsets, first.placesAt offsets ≠ []

namespace Retraces

variable {first : Session} {rounds : List Dispatch} {after : Traffic}

theorem keep (h : Retraces first traffic rounds) (hkeeps : traffic.session.Keeps after.session) :
    Retraces first after rounds := by
  refine ⟨h.continues.keeps hkeeps, ?_, h.sends⟩
  rw [hkeeps.tracker]
  exact h.rereads

/-- A round of the staged page is the latest of that page, and the pages before it are read
as they were. -/
theorem send (h : Retraces first traffic rounds) {requests : List Request}
    (hcontinues : first.Continues after.session) (hsent : requests ≠ [])
    (hplaces : requests.map Request.place = first.placesAt after.session.tracker.next)
    (hretains : traffic.session.tracker.Retains after.session.tracker) :
    Retraces first after (⟨after.session.tracker.pageIndex, requests⟩ :: rounds) where
  continues := hcontinues
  rereads := by
    intro index offsets hpage round hlatest
    obtain hindex | rfl := Nat.lt_or_eq_of_le (PageTracker.le_of_page?_eq_some hpage)
    · rw [hretains index hindex] at hpage
      rw [latest?, List.find?_cons_of_neg (by simpa using Nat.ne_of_gt hindex)] at hlatest
      exact h.rereads index offsets hpage round hlatest
    · rw [PageTracker.page?_pageIndex] at hpage
      rw [latest?, List.find?_cons_of_pos (by simp)] at hlatest
      cases hpage
      cases hlatest
      exact hplaces
  sends := by
    intro _ offsets
    rw [Ne, first.placesAt_eq_nil_iff offsets, ← hplaces, List.map_eq_nil_iff]
    exact hsent

theorem operate (h : Retraces first traffic rounds) (hhook : first.surroundings.hook = none)
    (hsize : first.surroundings.pageSize ≠ 0) {operation : Operation}
    (hbrowses : operation.browses = true) :
    Retraces first (traffic.operate operation)
      (traffic.dispatched (.operate operation) ++ rounds) := by
  have hcontinues : first.Continues (traffic.operate operation).session :=
    h.continues.trans (Operation.continues_run hbrowses)
  cases hsearch : operation.search? traffic.session with
  | none =>
    have hnone : traffic.dispatched (.operate operation) = [] :=
      if_pos (Operation.sent_of_search?_eq_none hsearch)
    rw [hnone]
    exact h.keep
      (Operation.keeps_of_search?_eq_none (Operation.adjusts_of_browses hbrowses) hsearch)
  | some search =>
    rw [← h.continues.surroundings] at hhook hsize
    obtain ⟨hplaces, hretains⟩ := Operation.places_run hhook hsize hbrowses hsearch
    rw [h.continues.placesAt] at hplaces
    by_cases hsent : (operation.run traffic.session).2 = []
    · -- Where nothing is sent now, nothing ever was.
      have hrounds : rounds = [] := by
        by_contra hsome
        rw [hsent, List.map_nil] at hplaces
        exact h.sends hsome _ hplaces.symm
      have hnone : traffic.dispatched (.operate operation) = [] := if_pos hsent
      rw [hnone, hrounds]
      refine ⟨hcontinues, fun index offsets _ round hlatest => ?_, fun hsome => absurd rfl hsome⟩
      cases hlatest
    · have hone : traffic.dispatched (.operate operation) =
          [⟨(operation.run traffic.session).1.tracker.pageIndex,
            (operation.run traffic.session).2⟩] := if_neg hsent
      rw [hone]
      exact h.send hcontinues hsent hplaces hretains

end Retraces

theorem retraces_run (traffic : Traffic) (hhook : traffic.session.surroundings.hook = none)
    (hsize : traffic.session.surroundings.pageSize ≠ 0) {actions : List Action}
    (hbrowses : ∀ action ∈ actions, action.browses = true) :
    Retraces traffic.session (traffic.run actions) (traffic.rounds actions) := by
  induction actions using List.reverseRecOn with
  | nil => exact ⟨.refl _, nofun, nofun⟩
  | append_singleton actions action ih =>
    obtain ⟨hactions, hlast⟩ := List.forall_mem_append.1 hbrowses
    rw [rounds_concat, run, List.foldl_concat]
    cases action with
    | operate operation =>
      exact (ih hactions).operate hhook hsize (hlast _ (List.mem_singleton_self _))
    | answer call reply => exact (ih hactions).keep (keeps_answer _ call reply)

theorem pageIndex_run (traffic : Traffic) {actions : List Action}
    (hbrowses : ∀ action ∈ actions, action.browses = true) :
    (traffic.run actions).session.tracker.pageIndex =
      actions.foldl Action.unmatchedAfter traffic.session.tracker.pageIndex := by
  induction actions generalizing traffic with
  | nil => rfl
  | cons action actions ih =>
    obtain ⟨haction, hactions⟩ := List.forall_mem_cons.1 hbrowses
    have hfirst : (traffic.act action).session.tracker.pageIndex =
        Action.unmatchedAfter traffic.session.tracker.pageIndex action := by
      cases action with
      | operate operation => exact Operation.pageIndex_run haction
      | answer call reply =>
        exact congrArg PageTracker.pageIndex (keeps_answer traffic call reply).tracker
    rw [List.foldl_cons, ← hfirst]
    exact ih (traffic.act action) hactions

/-- Of a fixed query, without a hook and with a page size, whoever goes back reads what the
latest round of that page has read: the same groups, from the same records on.  What was
found, told or given up in between does not matter, nor how searches are limited.  There is
a page to go back to as long as a turn to a next page is unmatched; without one the session
stays as it is. -/
theorem going_back_rereads (query : Query) {surroundings : Surroundings}
    (hhook : surroundings.hook = none) (hsize : surroundings.pageSize ≠ 0) {actions : List Action}
    (hbrowses : ∀ action ∈ actions, action.browses = true) :
    let created := Traffic.create (Session.create query surroundings)
    let session := (created.run actions).session
    let back := session.previousPage
    session.tracker.pageIndex = Action.unmatched actions ∧
      (Action.unmatched actions = 0 → back = (.ok .noPreviousPage, session)) ∧
      (Action.unmatched actions ≠ 0 →
        (∃ outcome, back.1 = .ok outcome ∧ outcome ≠ .noPreviousPage) ∧
        back.2.tracker.pageIndex + 1 = session.tracker.pageIndex ∧
        ∀ earlier, latest? back.2.tracker.pageIndex (created.rounds actions) = some earlier →
          ∃ round requests, back.1 = .ok (.dispatched round requests) ∧
            requests.map Request.place = earlier.requests.map Request.place) ∧
      ∀ later : List Action, (∀ action ∈ later, action.browses = true ∧ action.goesOn = false) →
        ((created.run (actions ++ later)).session.previousPage.1 = .ok .noPreviousPage ↔
          Action.unmatched actions ≤ later.countP Action.goesBack) := by
  intro created session back
  have hretraces := retraces_run created hhook hsize hbrowses
  have hindex : session.tracker.pageIndex = Action.unmatched actions :=
    pageIndex_run created hbrowses
  have hsame : session.surroundings = surroundings := hretraces.continues.surroundings
  refine ⟨hindex, fun hzero => ?_, fun hpos => ?_, fun later hlater => ?_⟩
  · rw [← hindex] at hzero
    exact Session.previousPage_of_none (PageTracker.retreat?_eq_none_iff.2 hzero)
  · rw [← hindex] at hpos
    obtain ⟨hsucceeds, hpage, offsets, hkept, hplaces⟩ :=
      Session.previousPage_of_pos (hsame.symm ▸ hhook) (hsame.symm ▸ hsize) hpos
    refine ⟨hsucceeds, hpage, fun earlier hlatest => ?_⟩
    have hread := hretraces.rereads _ offsets hkept earlier hlatest
    rw [hretraces.continues.placesAt] at hplaces
    have hsent : (Session.sending back).2 ≠ [] := by
      have hrounds : created.rounds actions ≠ [] := by
        intro hnil
        rw [hnil] at hlatest
        cases hlatest
      have hsome := hretraces.sends hrounds offsets
      rw [← hplaces] at hsome
      exact mt (congrArg (List.map Request.place)) hsome
    obtain ⟨round, hround⟩ := Session.exists_dispatched hsent
    exact ⟨round, _, hround, hplaces.trans hread.symm⟩
  · have hall : ∀ action ∈ actions ++ later, action.browses = true :=
      List.forall_mem_append.2 ⟨hbrowses, fun action h => (hlater action h).1⟩
    have hlast := (retraces_run created hhook hsize hall).continues.surroundings
    rw [Session.previousPage_eq_noPreviousPage_iff (by rw [hlast]; exact hhook)
      (by rw [hlast]; exact hsize), pageIndex_run created hall, ← Nat.sub_eq_zero_iff_le,
      ← Action.unmatched_append actions fun action h => (hlater action h).2]
    rfl

/-- Two pages on, and a round that fails and is given up. -/
def twoPagesOn : List Action :=
  let report (id : String) (hits count : UInt64) : Reply :=
    .ok ⟨[], [⟨id, some hits, some count, none, none, []⟩]⟩
  [.operate (.start {}), .answer 0 (report "home" 5 2), .answer 1 (report "site" 1 1),
    .operate .poll, .operate .nextPage, .answer 2 (report "home" 7 2), .answer 3 (report "site" 1 0),
    .operate .poll, .operate .nextPage, .answer 4 (.error .timedOut), .operate .poll,
    .operate .cancel]

theorem second_page_read_again :
    let surroundings : Surroundings :=
      ⟨(Registry.create "home" false).register ⟨"site", .federatedSite, true⟩, 2, 1000, none⟩
    let created := Traffic.create (Session.create (.create "query" "Search") surroundings)
    let session := (created.run twoPagesOn).session
    let again := [Action.operate .previousPage, .operate .previousPage]
    Action.unmatched twoPagesOn = 2 ∧
      (∃ round requests, session.previousPage.1 = .ok (.dispatched round requests) ∧
        requests.map Request.place =
          [⟨.localSites, ["home"], 3⟩, ⟨.site "site", ["site"], 2⟩]) ∧
      (created.run (twoPagesOn ++ again)).session.previousPage.1 = .ok .noPreviousPage := by
  intro surroundings created session again
  have hbrowses : ∀ action ∈ twoPagesOn, action.browses = true :=
    List.all_eq_true.1 (by decide +kernel)
  have hagain : ∀ action ∈ again, action.browses = true ∧ action.goesOn = false := by
    simp [again, Action.browses, Operation.browses, Action.goesOn]
  have hearlier : (latest? 1 (created.rounds twoPagesOn)).map
      (fun earlier => earlier.requests.map Request.place) =
        some [⟨.localSites, ["home"], 3⟩, ⟨.site "site", ["site"], 2⟩] := by decide +kernel
  have hpage : session.previousPage.2.tracker.pageIndex = 1 := by decide +kernel
  obtain ⟨earlier, hlatest, hplaces⟩ := Option.map_eq_some_iff.1 hearlier
  have hhook : surroundings.hook = none := rfl
  obtain ⟨-, -, hback, hmore⟩ :=
    going_back_rereads (.create "query" "Search") hhook (by decide) hbrowses
  have hunmatched : Action.unmatched twoPagesOn = 2 := by decide +kernel
  have hpos : Action.unmatched twoPagesOn ≠ 0 := by rw [hunmatched]; decide
  obtain ⟨-, -, hreads⟩ := hback hpos
  have hread := hreads earlier (by rw [hpage]; exact hlatest)
  obtain ⟨round, requests, hdispatched, hsame⟩ := hread
  refine ⟨hunmatched, ⟨round, requests, hdispatched, hsame.trans hplaces⟩, ?_⟩
  exact (hmore again hagain).2 (by rw [hunmatched]; decide)

end Traffic

end CatalogSearch
