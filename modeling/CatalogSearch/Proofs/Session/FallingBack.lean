import CatalogSearch.Proofs.Paging.Staging
import CatalogSearch.Proofs.Session.WordSize

/-!
# Falling back

Turning the page reads every group on from where the search before asked it, but at most one
past the hits that the board knows of.  So a group falls back behind that place only if the
board knows of fewer hits than lie before it, and what nobody has reported counts for nothing:
a site that failed, was given up or has not answered is read from its first record again.
-/

namespace CatalogSearch

open StatusBoard

namespace StatusBoard

theorem knownHits_eq_zero {statuses : List Status}
    (h : ∀ status ∈ statuses, status.hits = none) : knownHits statuses = 0 := by
  refine List.sum_eq_zero fun hits hmem => ?_
  obtain ⟨status, hstatus, rfl⟩ := List.mem_map.1 hmem
  rw [h status hstatus]
  rfl

end StatusBoard

namespace PageTracker

variable {tracker : PageTracker} {registry : Registry} {board : StatusBoard} {key : String}

/-- An offset stays where it is or moves on, as long as no cap lies before it. -/
theorem le_exactOffset {start : Nat} {statuses : List Status}
    (hcap : ∀ status ∈ statuses, start ≤ exactCap registry board status) :
    start ≤ exactOffset registry board start statuses :=
  List.foldlRecOn (motive := (start ≤ ·)) statuses _ (Nat.le_refl start) fun _ h status hstatus =>
    Nat.le_min.2 ⟨Nat.le_add_right_of_le h, hcap status hstatus⟩

/-- Hits that nobody has reported leave nothing to read past the first record. -/
theorem exactCap_eq_one (hunknown : ∀ status ∈ board.sharing registry key, status.hits = none)
    {status : Status} (hstatus : status ∈ board.sharing registry key) :
    exactCap registry board status = 1 := by
  obtain ⟨-, -, rfl⟩ := mem_sharing.1 hstatus
  rw [exactCap]
  split
  · rename_i hlocal
    have hnone : knownHits (localStatuses registry board) = 0 := by
      refine knownHits_eq_zero fun other hother => hunknown other ?_
      obtain ⟨hmem, hotherLocal⟩ := List.mem_filter.1 hother
      refine mem_sharing.2 ⟨hmem, Registry.ne_cacheId_of_isLocal hotherLocal, ?_⟩
      rw [Registry.offsetKey, Registry.offsetKey, if_pos hotherLocal, if_pos hlocal]
    rw [hnone]
  · rw [hunknown status hstatus]
    rfl

theorem current_of_retreat? {previous : PageTracker} (h : tracker.retreat? = some previous) :
    previous.current = tracker.current := by
  obtain ⟨current, next, _ | ⟨offsets, earlier⟩⟩ := tracker <;> cases h
  rfl

/-- What is staged for a group lies before its current offset only if a cap does. -/
theorem exists_exactCap_lt_of_lt (htracker : tracker.Reached)
    (hfits : tracker.Fits registry board) (selected : List String)
    (h : (tracker.following selected registry board).get key < tracker.startOf key) :
    ∃ status ∈ board.sharing registry key,
      exactCap registry board status < (tracker.startOf key).toNat := by
  by_contra! hcap
  rw [UInt64.lt_iff_toNat_lt, hfits.toNat_get_following htracker.sorted.current
    (htracker.one_le.current key)] at h
  exact absurd (le_exactOffset hcap) (Nat.not_le.2 h)

/-- A group of which no status tells stays where it is. -/
theorem get_following_of_sharing_eq_nil (htracker : tracker.Reached) (selected : List String)
    (h : board.sharing registry key = []) :
    (tracker.following selected registry board).get key = tracker.startOf key := by
  rw [get_following_eq_foldl htracker.sorted.current, h, List.foldl_nil, ← UInt64.toNat_inj,
    UInt64.toNat_max]
  exact Nat.max_eq_left (htracker.one_le.current key)

/-- A group whose hits nobody has reported is read from its first record again. -/
theorem get_following_of_unknown (htracker : tracker.Reached)
    (hfits : tracker.Fits registry board) (selected : List String)
    (hsome : board.sharing registry key ≠ [])
    (hunknown : ∀ status ∈ board.sharing registry key, status.hits = none) :
    (tracker.following selected registry board).get key = 1 := by
  have hpos : 1 ≤ (tracker.startOf key).toNat := htracker.one_le.current key
  rw [← UInt64.toNat_inj, hfits.toNat_get_following htracker.sorted.current hpos,
    exactOffset_eq_min hsome fun status => exactCap_eq_one hunknown]
  exact Nat.min_eq_right (Nat.le_add_right_of_le hpos)

end PageTracker

namespace Session

instance (session : Session) (options : SearchOptions) : Decidable (session.Starts options) :=
  inferInstanceAs (Decidable (_ ∧ _))

/-- The requests of a search before a hook rewrites them, unless it is refused. -/
def planned? (session : Session) (options : SearchOptions) : Option (List Request) :=
  if session.Starts options then
    some ((session.baseRequest options).split session.selectedSources session.registry
      session.tracker.beginRound)
  else none

end Session

namespace Operation

/-- The requests of the search that an operation runs before a hook rewrites them, unless it
runs none or it is refused. -/
def planned? (session : Session) (operation : Operation) : Option (List Request) :=
  (operation.search? session).bind fun search => search.1.planned? search.2

/-- Whether an operation takes paging back to the first page. -/
def resetsPaging : Operation → Bool
  | startFromFirstPage _ | setFilter _ | setSorts _ | setFederation _ | setSources _
  | setSourcesFromRegistry | preferencesChanged => true
  | _ => false

variable {session : Session} {operation : Operation}

theorem sent_of_unhooked (hhook : session.surroundings.hook = none) :
    (operation.run session).2 = (operation.planned? session).getD [] := by
  rw [planned?]
  cases hsearch : operation.search? session with
  | none => exact sent_of_search?_eq_none hsearch
  | some search =>
    obtain ⟨before, options⟩ := search
    have hbefore : before.surroundings.hook = none := by
      rwa [(frame_of_search? hsearch).1]
    rw [run_of_search? hsearch, Option.bind_some, Session.planned?]
    split
    · rename_i hstarts
      rw [Session.sent_start_of_starts hstarts, Session.roundRequests_of_unhooked hbefore]
      rfl
    · rename_i hrefused
      rw [Session.start_of_not_starts hrefused]
      rfl

/-- A search begins its round where it plans to read. -/
theorem start_of_mem_planned {requests : List Request}
    (h : operation.planned? session = some requests) {request : Request}
    (hrequest : request ∈ requests) :
    request.start = (operation.run session).1.tracker.startOf request.group.key := by
  obtain ⟨⟨before, options⟩, hsearch, hplanned⟩ := Option.bind_eq_some_iff.1 h
  obtain ⟨hstarts, hrequests⟩ := Option.ite_none_right_eq_some.1 hplanned
  cases hrequests
  rw [run_of_search? hsearch, (Session.prepared_start_of_starts hstarts).tracker]
  exact Request.start_of_mem_split hrequest

/-- Only where paging is taken back to the first page, a search changes the offsets of the
round before it was begun. -/
theorem current_of_search? {before : Session} {options : SearchOptions}
    (hresets : operation.resetsPaging = false)
    (h : operation.search? session = some (before, options)) :
    before.tracker.current = session.tracker.current := by
  cases operation with
  | start | nextPage | startLocal =>
    cases h
    rfl
  | startIfOutdated =>
    simp only [search?, Option.ite_none_right_eq_some] at h
    cases h.2
    rfl
  | previousPage =>
    obtain ⟨tracker, htracker, h⟩ := Option.map_eq_some_iff.1 h
    cases h
    exact PageTracker.current_of_retreat? htracker
  | widen =>
    simp only [search?, Option.ite_none_left_eq_some, Option.bind_eq_some_iff] at h
    obtain ⟨-, view, -, -, h⟩ := h
    cases h
    rfl
  | startFromFirstPage => cases hresets
  | _ => cases h

/-- Without a search that is not refused, the offsets stay those of the last one, unless paging
is taken back to the first page. -/
theorem current_of_planned?_eq_none (hresets : operation.resetsPaging = false)
    (h : operation.planned? session = none) :
    (operation.run session).1.tracker.current = session.tracker.current := by
  cases hsearch : operation.search? session with
  | none =>
    cases hadjusts : operation.adjusts with
    | false => rw [(keeps_of_search?_eq_none hadjusts hsearch).tracker]
    | true =>
      cases operation with
      | setPageSize | setHook => rfl
      | setFilter | setSorts | setFederation | setSources | setSourcesFromRegistry
      | preferencesChanged => cases hresets
      | _ => cases hadjusts
  | some search =>
    obtain ⟨before, options⟩ := search
    have hrefused : ¬before.Starts options := by
      rw [planned?, hsearch, Option.bind_some, Session.planned?] at h
      intro hstarts
      rw [if_pos hstarts] at h
      cases h
    have hcurrent := current_of_search? hresets hsearch
    rwa [run_of_search? hsearch, Session.start_of_not_starts hrefused]

/-- Turning the page plans to read every group from where it was staged to. -/
theorem start_of_mem_planned_nextPage {request : Request}
    (h : request ∈ (nextPage.planned? session).getD []) :
    request.start =
      (session.tracker.following session.selectedSources session.registry session.statuses).get
        request.group.key := by
  cases hplanned : nextPage.planned? session with
  | none =>
    rw [hplanned] at h
    cases h
  | some requests =>
    rw [hplanned] at h
    rw [planned?, search?, Option.bind_some] at hplanned
    obtain ⟨-, hrequests⟩ := Option.ite_none_right_eq_some.1 hplanned
    cases hrequests
    exact Request.start_of_mem_split h

end Operation

namespace Traffic

variable {traffic : Traffic}

/-- What the last search that was not refused asked before a hook rewrote it, after one more
action; nothing if paging went back to the first page since. -/
def askedAfter (traffic : Traffic) (asked : List Request) : Action → List Request
  | .operate operation =>
    (operation.planned? traffic.session).getD (if operation.resetsPaging then [] else asked)
  | .answer _ _ => asked

/-- The same after some actions. -/
def lastAsked (traffic : Traffic) (asked : List Request) : List Action → List Request
  | [] => asked
  | action :: rest => (traffic.act action).lastAsked (traffic.askedAfter asked action) rest

/-- The current offsets are those at which some requests start. -/
def Remembers (traffic : Traffic) (asked : List Request) : Prop :=
  ∀ request ∈ asked, request.start = traffic.session.tracker.startOf request.group.key

theorem Remembers.act {asked : List Request} (h : traffic.Remembers asked) (action : Action) :
    (traffic.act action).Remembers (traffic.askedAfter asked action) := by
  cases action with
  | operate operation =>
    rw [askedAfter]
    cases hplanned : operation.planned? traffic.session with
    | some requests => exact fun request => Operation.start_of_mem_planned hplanned
    | none =>
      rw [Option.getD_none]
      cases hresets : operation.resetsPaging with
      | true => exact nofun
      | false =>
        intro request hrequest
        have hcurrent := Operation.current_of_planned?_eq_none hresets hplanned
        rw [h request hrequest, PageTracker.startOf, ← hcurrent]
        rfl
  | answer call reply =>
    intro request hrequest
    rw [h request hrequest]
    exact congrArg (fun tracker => PageTracker.startOf tracker request.group.key)
      (keeps_answer traffic call reply).tracker.symm

theorem Remembers.run {asked : List Request} (h : traffic.Remembers asked)
    (actions : List Action) :
    (traffic.run actions).Remembers (traffic.lastAsked asked actions) := by
  induction actions generalizing traffic asked with
  | nil => exact h
  | cons action rest ih => exact ih (h.act action)

/-- Turning the page asks a group from behind the place where the last search asked it, as far
as paging did not go back to the first page since, only if the board knows of fewer hits of
the group than lie before that place.  A group that the board does not tell of is asked from the
same place again, and one of whose hits it knows nothing from the first record.  That is what is
asked before a hook rewrites it, as long as no sum passes a word. -/
theorem page_falls_back_to_known_hits_only (query : Query) (surroundings : Surroundings)
    (actions : List Action)
    (hfits :
      let session := ((Traffic.create (.create query surroundings)).run actions).session
      session.tracker.Fits session.registry session.statuses) :
    let start := Traffic.create (.create query surroundings)
    let session := (start.run actions).session
    (session.surroundings.hook = none → ∀ operation : Operation,
      (operation.run session).2 = (operation.planned? session).getD []) ∧
    ∀ request ∈ (Operation.nextPage.planned? session).getD [],
      ∀ earlier ∈ start.lastAsked [] actions, request.group = earlier.group →
        let told := session.statuses.sharing session.registry request.group.key
        (request.start < earlier.start →
          ∃ status ∈ told,
            PageTracker.exactCap session.registry session.statuses status <
              earlier.start.toNat) ∧
        (told = [] → request.start = earlier.start) ∧
        (told ≠ [] → (∀ status ∈ told, status.hits = none) → request.start = 1) := by
  intro start session
  refine ⟨fun hhook operation => Operation.sent_of_unhooked hhook, ?_⟩
  intro request hrequest earlier hearlier hgroup told
  have hreached : session.tracker.Reached := @reached_run start .fresh actions
  have hremembers : (start.run actions).Remembers (start.lastAsked [] actions) :=
    @Remembers.run start [] nofun actions
  have hbefore : earlier.start = session.tracker.startOf request.group.key :=
    hgroup ▸ hremembers earlier hearlier
  rw [Operation.start_of_mem_planned_nextPage hrequest, hbefore]
  exact ⟨PageTracker.exists_exactCap_lt_of_lt hreached hfits _,
    PageTracker.get_following_of_sharing_eq_nil hreached _,
    PageTracker.get_following_of_unknown hreached hfits _⟩

/-- A catalog and two federated sites. -/
def catalogAndTwoSites : Surroundings :=
  ⟨((Registry.create "home" false).register ⟨"site", .federatedSite, true⟩).register
    ⟨"dark", .federatedSite, true⟩, 10, 1000, none⟩

/-- The traffic of a session with them that has not sent anything. -/
def searchOfThree : Traffic := .create (.create (.create "query" "Search") catalogAndTwoSites)

/-- One of them reporting ten of its thirty records. -/
def tenOfThirty (call : Nat) (id : String) : Action :=
  .answer call (.ok ⟨[], [⟨id, some 30, some 10, none, none, []⟩]⟩)

/-- All of them answer for the first page; for the second one the catalog does not answer, one
site does and one fails. -/
def darkenedSecondPage : List Action :=
  [.operate (.start {}), tenOfThirty 0 "home", tenOfThirty 1 "site", tenOfThirty 2 "dark",
    .operate .poll, .operate .nextPage, tenOfThirty 4 "site", .answer 5 (.error .timedOut),
    .operate .poll]

/-- The third page after it, for which the site answers that did before. -/
def darkenedThirdPage : List Action :=
  darkenedSecondPage ++ [.operate .nextPage, tenOfThirty 7 "site", .operate .poll]

/-- Where groups were asked last and where turning the page asks them, by their keys. -/
def lastAndNext (actions : List Action) : List (String × UInt64) × List (String × UInt64) :=
  let starts (requests : List Request) := requests.map fun request =>
    (request.group.key, request.start)
  (starts (searchOfThree.lastAsked [] actions),
    starts ((Operation.nextPage.planned? (searchOfThree.run actions).session).getD []))

theorem answering_site_is_read_on :
    let session := (searchOfThree.run darkenedSecondPage).session
    session.tracker.Fits session.registry session.statuses ∧
      ∀ request ∈ (Operation.nextPage.planned? session).getD [],
        ∀ earlier ∈ searchOfThree.lastAsked [] darkenedSecondPage, request.group = earlier.group →
          (request.group = .site "site" → ¬request.start < earlier.start) ∧
          (request.group = .site "dark" → request.start = 1) := by
  intro session
  have hfits : session.tracker.Fits session.registry session.statuses := by decide +kernel
  obtain ⟨-, hturned⟩ := page_falls_back_to_known_hits_only (.create "query" "Search")
    catalogAndTwoSites darkenedSecondPage hfits
  refine ⟨hfits, fun request hrequest earlier hearlier hsame => ⟨fun hgroup hlt => ?_,
    fun hgroup => ?_⟩⟩
  · obtain ⟨status, hstatus, hcap⟩ := (hturned request hrequest earlier hearlier hsame).1 hlt
    have hcaps : ∀ earlier ∈ searchOfThree.lastAsked [] darkenedSecondPage,
        ∀ status ∈ session.statuses.sharing session.registry "site",
          earlier.start.toNat ≤
            PageTracker.exactCap session.registry session.statuses status := by decide +kernel
    rw [hgroup] at hstatus
    exact absurd hcap (Nat.not_lt.2 (hcaps earlier hearlier status hstatus))
  · refine (hturned request hrequest earlier hearlier hsame).2.2 ?_ ?_ <;> rw [hgroup] <;>
      decide +kernel

/-- A site that failed and a catalog that has not answered are read from their first record
again, and a change of preferences takes even a site back that knows of more hits. -/
theorem failed_site_falls_back :
    let board (actions : List Action) :=
      (searchOfThree.run actions).session.statuses.map fun status =>
        (status.id, status.hits)
    lastAndNext darkenedSecondPage =
        ([("local", 11), ("site", 11), ("dark", 11)], [("local", 1), ("site", 21), ("dark", 1)]) ∧
      board darkenedSecondPage = [("home", none), ("site", some 30), ("dark", none)] ∧
      (lastAndNext darkenedThirdPage).1 = [("local", 1), ("site", 21), ("dark", 1)] ∧
      let adjusted := darkenedThirdPage ++ [.operate .preferencesChanged]
      (lastAndNext adjusted).2 = [("local", 1), ("site", 11), ("dark", 1)] ∧
        board adjusted = [("home", none), ("site", some 30), ("dark", none)] := by
  decide +kernel

end Traffic

end CatalogSearch
