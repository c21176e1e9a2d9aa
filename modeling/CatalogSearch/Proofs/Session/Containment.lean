import CatalogSearch.Proofs.Paging.Groups
import CatalogSearch.Proofs.Session.AnyOrder
import Mathlib.Data.List.InsertIdx
import Mathlib.Data.List.Perm.Basic

/-!
# Containment of failures

A request that fails costs what it would have brought, and nothing else.  The run of a round
with a failure in it is compared with the run of the same round without the request that
fails: they show the same results, the same statuses of all other sources, and stage the same
offsets for all groups that the request does not read for.
-/

namespace CatalogSearch

namespace PageTracker

open StatusBoard

variable {registry : Registry} {board other : StatusBoard} {key : String}

/-- Boards with the same statuses of some sources stage the same for every group that no other
source belongs to. -/
theorem find?_following_of_keeping {keeps : String → Bool}
    (h : board.keeping keeps = other.keeping keeps)
    (hkey : ∀ id, keeps id = false → registry.offsetKey id ≠ key) (tracker : PageTracker)
    (selected : List String) :
    Table.find? key (tracker.following selected registry board) =
      Table.find? key (tracker.following selected registry other) := by
  have hkept (belongs : String → Bool) (hbelongs : ∀ id, belongs id = true → keeps id = true)
      (board : StatusBoard) : (board.keeping keeps).filter (fun status => belongs status.id) =
        board.filter fun status => belongs status.id := by
    rw [keeping, List.filter_filter]
    refine List.filter_congr fun status _ => ?_
    cases hstatus : belongs status.id with
    | false => rfl
    | true => rw [hbelongs _ hstatus, Bool.true_and]
  refine find?_following_congr tracker selected ?_ ?_
  · have hshares : ∀ id, (id != Source.cacheId && registry.offsetKey id == key) = true →
        keeps id = true := by
      intro id hid
      rw [Bool.and_eq_true, beq_iff_eq] at hid
      refine Bool.of_not_eq_false fun hnot => hkey id hnot hid.2
    rw [sharing, sharing, ← hkept _ hshares board, ← hkept _ hshares other, h]
  · rintro rfl
    have hlocal : ∀ id, registry.isLocal id = true → keeps id = true :=
      fun id hid => Bool.of_not_eq_false fun hnot => hkey id hnot (if_pos hid)
    rw [localStatuses, localStatuses, ← hkept _ hlocal board, ← hkept _ hlocal other, h]

end PageTracker

open StatusBoard

namespace Session

variable {arrivals : List Arrival} {board : StatusBoard}

/-! ## Replies and the sources that they leave alone -/

/-- Replies that keep to their own sources leave all others alone. -/
theorem find?_foldl_boardAfter {id : String} (hconfined : ∀ arrival ∈ arrivals, arrival.Confined)
    (hid : id ∉ answeredSources arrivals) (board : StatusBoard) :
    (arrivals.foldl boardAfter board).find? id = board.find? id := by
  have hapart : ∀ change ∈ allChanges arrivals, id ≠ change.1 := by
    rintro change hchange rfl
    exact hid (mem_answeredSources_of_mem_allChanges hconfined change hchange)
  rw [foldl_boardAfter_eq, find?_updateAll_of_apart settles_of_mem_allChanges hapart]

/-- A reply that keeps to its own sources might as well not have come, as far as the others
are concerned. -/
theorem keeping_foldl_of_confined {arrival : Arrival} (h : arrival.Confined)
    {other : StatusBoard}
    (hboard : board.keeping arrival.leavesOut = other.keeping arrival.leavesOut)
    (earlier later : List Arrival) :
    ((earlier ++ arrival :: later).foldl boardAfter board).keeping arrival.leavesOut =
      ((earlier ++ later).foldl boardAfter other).keeping arrival.leavesOut := by
  have hnone : (arrival.changes.filter fun change => arrival.leavesOut change.1) = [] := by
    rw [Arrival.filter_changes, Arrival.confined_iff.1 h]
    rfl
  rw [foldl_boardAfter_eq, foldl_boardAfter_eq, keeping_updateAll settles_of_mem_allChanges,
    keeping_updateAll settles_of_mem_allChanges, hboard, allChanges, allChanges,
    List.flatMap_append, List.flatMap_append, List.flatMap_cons, List.filter_append,
    List.filter_append, List.filter_append, hnone, List.nil_append]

/-- The sources of a request that fails have failed in the end, if no other reply is about
them. -/
theorem find?_foldl_of_failure {request : Request} {id : String} {earlier later : List Arrival}
    (hsources : request.sources.Nodup) (hid : id ∈ request.sources)
    (hconfined : ∀ arrival ∈ earlier ++ later, arrival.Confined)
    (hapart : id ∉ answeredSources (earlier ++ later)) (failure : Failure)
    (board : StatusBoard) :
    ((earlier ++ ⟨request, .error failure⟩ :: later).foldl boardAfter board).find? id =
      some (failed (board.status id)) := by
  obtain ⟨hearlier, hlater⟩ := List.forall_mem_append.1 hconfined
  rw [answeredSources, List.flatMap_append, List.mem_append, not_or] at hapart
  have hstatus : (earlier.foldl boardAfter board).status id = board.status id :=
    congrArg (Option.getD · _) (find?_foldl_boardAfter hearlier hapart.1 board)
  rw [List.foldl_append, List.foldl_cons, find?_foldl_boardAfter hlater hapart.2, boardAfter_eq,
    ← hstatus]
  exact find?_updateAll_of_mem hsources hid settles_failed _

/-- A failure brings nothing to the view, and takes nothing out of it. -/
theorem foldl_viewAfter_of_failure (request : Request) (failure : Failure) (view : View)
    (earlier later : List Arrival) :
    (earlier ++ ⟨request, .error failure⟩ :: later).foldl viewAfter view =
      (earlier ++ later).foldl viewAfter view := by
  rw [List.foldl_append, List.foldl_append]
  rfl

/-! ## The round without a request -/

/-- The session with a hook that takes one request out of each round, after what any other
hook does. -/
def leavingOut (session : Session) (index : Nat) : Session :=
  { session with
    surroundings := { session.surroundings with
      hook := some fun requests => (session.surroundings.hook.getD id requests).eraseIdx index } }

theorem roundRequests_leavingOut (session : Session) (index : Nat) (options : SearchOptions) :
    (session.leavingOut index).roundRequests options =
      (session.roundRequests options).eraseIdx index := by
  let plain := (session.baseRequest options).split session.selectedSources session.registry
    session.tracker.beginRound
  have hleft : (session.leavingOut index).roundRequests options =
      ((session.surroundings.hook.getD id plain).eraseIdx index).map fun request =>
        { request with round := session.rounds + 1 } := rfl
  rw [hleft]
  cases hhook : session.surroundings.hook with
  | some hook =>
    rw [roundRequests, hooked, hhook, List.eraseIdx_map]
    rfl
  | none =>
    -- A hook stamps its requests with the round, which these carry already.
    have hplain : session.roundRequests options = plain := roundRequests_of_unhooked hhook options
    have hsame : ∀ request ∈ plain.eraseIdx index,
        { request with round := session.rounds + 1 } = request := by
      intro request hrequest
      have hmem := List.mem_of_mem_eraseIdx hrequest
      rw [← round_of_mem_roundRequests (hplain ▸ hmem)]
    rw [hplain]
    exact (List.map_congr_left hsame).trans (List.map_id _)

theorem sendRound_leavingOut (session : Session) (index : Nat) (options : SearchOptions)
    (requests : List Request) :
    (session.leavingOut index).sendRound options requests =
      (session.sendRound options requests).leavingOut index := by
  obtain ⟨query, surroundings, tracker, statuses, view, _ | round⟩ := session <;> rfl

theorem start_leavingOut {session : Session} {options : SearchOptions} (index : Nat)
    (h : session.Starts options) (hne : (session.roundRequests options).eraseIdx index ≠ []) :
    (session.leavingOut index).start options =
      (.ok (.dispatched (session.rounds + 1) ((session.roundRequests options).eraseIdx index)),
        (session.sendRound options ((session.roundRequests options).eraseIdx index)).leavingOut
          index) :=
  start_eq_dispatched_iff.2 ⟨h, (roundRequests_leavingOut session index options).symm, hne, rfl,
    (sendRound_leavingOut session index options _).symm⟩

section

variable {requests : List Request} {index : Nat} {request : Request}

theorem cons_eraseIdx_perm (h : requests[index]? = some request) :
    (request :: requests.eraseIdx index).Perm requests := by
  obtain ⟨hlt, rfl⟩ := List.getElem?_eq_some_iff.1 h
  exact List.getElem_cons_eraseIdx_perm hlt

/-- A request of a round without a source in common lists each of its sources once, and none
of the other requests, which are of that kind too, lists it. -/
theorem apart_of_getElem? (hapart : (requests.flatMap Request.sources).Nodup)
    (h : requests[index]? = some request) :
    request.sources.Nodup ∧ ((requests.eraseIdx index).flatMap Request.sources).Nodup ∧
      ∀ id ∈ request.sources, id ∉ (requests.eraseIdx index).flatMap Request.sources := by
  have hperm := (cons_eraseIdx_perm h).flatMap_right Request.sources
  obtain ⟨hown, hothers, hne⟩ := List.nodup_append.1 (hperm.nodup_iff.2 hapart)
  exact ⟨hown, hothers, fun id hid hmem => hne id hid id hmem rfl⟩

/-- The sources of the other requests are asked with and without a request. -/
theorem filter_askedSources (hapart : (requests.flatMap Request.sources).Nodup)
    (h : requests[index]? = some request) :
    (askedSources requests).filter (fun id => !request.sources.contains id) =
      (askedSources (requests.eraseIdx index)).filter fun id => !request.sources.contains id := by
  obtain ⟨-, hothers, -⟩ := apart_of_getElem? hapart h
  obtain ⟨hlt, rfl⟩ := List.getElem?_eq_some_iff.1 h
  have hsplit : requests = requests.take index ++ requests[index] :: requests.drop (index + 1) := by
    rw [List.getElem_cons_drop, List.take_append_drop]
  have hown : requests[index].sources.filter
      (fun id => !requests[index].sources.contains id) = [] := by
    rw [List.filter_eq_nil_iff]
    intro id hid
    simpa using hid
  have hall : requests.flatMap Request.sources =
      (requests.take index).flatMap Request.sources ++
        (requests[index].sources ++ (requests.drop (index + 1)).flatMap Request.sources) := by
    rw [← List.flatMap_cons, ← List.flatMap_append, ← hsplit]
  rw [askedSources, askedSources, Request.eraseDups_of_nodup hapart,
    Request.eraseDups_of_nodup hothers, hall, List.eraseIdx_eq_take_drop_succ,
    List.flatMap_append, List.filter_append, List.filter_append, List.filter_append, hown,
    List.nil_append]

theorem map_request_perm {earlier later : List Arrival} {reply : Reply}
    (h : requests[index]? = some request)
    (hanswers : ((earlier ++ later).map Arrival.request).Perm (requests.eraseIdx index)) :
    ((earlier ++ ⟨request, reply⟩ :: later).map Arrival.request).Perm requests := by
  rw [List.map_append] at hanswers
  rw [List.map_append, List.map_cons]
  calc
    (earlier.map Arrival.request ++ request :: later.map Arrival.request).Perm
        (request :: (earlier.map Arrival.request ++ later.map Arrival.request)) :=
      List.perm_middle
    List.Perm _ (request :: requests.eraseIdx index) := hanswers.cons request
    List.Perm _ requests := cons_eraseIdx_perm h

end

/-- The run of a round in which a request fails and the run of the round without that request
both come to an end, with the other replies in the same order. -/
theorem concludes_with_and_without {before session : Session} {options : SearchOptions}
    {round : RoundId} {requests : List Request} {index : Nat} {request : Request}
    {front back : List Turn} (reply : Reply)
    (hsent : before.start options = (.ok (.dispatched round requests), session))
    (hmany : 1 < requests.length) (hrequest : requests[index]? = some request)
    (hanswers : ((repliesTo round (front ++ back)).map Arrival.request).Perm
      (requests.eraseIdx index)) :
    ∃ fewer, (before.leavingOut index).start options =
        (.ok (.dispatched round (requests.eraseIdx index)), fewer) ∧ fewer.view = session.view ∧
      Concludes session (session.drained (front ++ .arrives ⟨request, reply⟩ :: back)) round
        (repliesTo round front ++ ⟨request, reply⟩ :: repliesTo round back) ∧
      Concludes fewer (fewer.drained (front ++ back)) round
        (repliesTo round front ++ repliesTo round back) := by
  obtain ⟨hstarts, rfl, -, rfl, rfl⟩ := start_eq_dispatched_iff.1 hsent
  have hne : (before.roundRequests options).eraseIdx index ≠ [] := by
    have hlength := (cons_eraseIdx_perm hrequest).length_eq
    rw [List.length_cons] at hlength
    exact List.ne_nil_of_length_pos (by omega)
  have hround : (⟨request, reply⟩ : Arrival).round = before.rounds + 1 :=
    round_of_mem_roundRequests (List.mem_of_getElem? hrequest)
  have hreplies : repliesTo (before.rounds + 1) (front ++ .arrives ⟨request, reply⟩ :: back) =
      repliesTo (before.rounds + 1) front ++ ⟨request, reply⟩ ::
        repliesTo (before.rounds + 1) back := by
    rw [repliesTo_append, repliesTo_arrives hround]
  have hreduced := start_leavingOut index hstarts hne
  refine ⟨_, hreduced, rfl, ?_, ?_⟩
  · rw [repliesTo_append] at hanswers
    rw [← hreplies]
    exact concludes_drained hsent (hreplies ▸ map_request_perm hrequest hanswers)
  · rw [← repliesTo_append]
    exact concludes_drained hreduced hanswers

/-- A request that fails, at any place among the replies to a round of requests without a
source in common, where the other replies report on the sources of their own requests only.
The round settles, and comes to what comes of the same round without that request: to the same
view, the same statuses of all other sources, and the same offsets staged for the groups that
its sources do not belong to.  Its own sources have failed, and returned nothing. -/
theorem failure_is_contained {before session : Session} {options : SearchOptions}
    {round : RoundId} {requests : List Request} {index : Nat} {request : Request}
    {front back : List Turn} (failure : Failure)
    (hsent : before.start options = (.ok (.dispatched round requests), session))
    (hmany : 1 < requests.length) (hapart : (requests.flatMap Request.sources).Nodup)
    (hrequest : requests[index]? = some request)
    (hanswers : ((repliesTo round (front ++ back)).map Arrival.request).Perm
      (requests.eraseIdx index))
    (hconfined : ∀ arrival ∈ repliesTo round (front ++ back), arrival.Confined) :
    ∃ fewer, (before.leavingOut index).start options =
        (.ok (.dispatched round (requests.eraseIdx index)), fewer) ∧
      let full := session.drained (front ++ .arrives ⟨request, .error failure⟩ :: back)
      let reduced := fewer.drained (front ++ back)
      let others := fun id => !request.sources.contains id
      full.state = .settled ∧ full.log.toList.getLast? = some (.settled round) ∧
        reduced.state = .settled ∧ full.view = reduced.view ∧
        full.statuses.keeping others = reduced.statuses.keeping others ∧
        (∀ key, (∀ id ∈ request.sources, before.registry.offsetKey id ≠ key) →
          Table.find? key full.nextPage.2.tracker.next =
            Table.find? key reduced.nextPage.2.tracker.next) ∧
        ∀ id ∈ request.sources,
          full.statuses.find? id = some ⟨id, false, some false, none, 0, none, []⟩ := by
  obtain ⟨fewer, hreduced, hview, hfull, hfewer⟩ :=
    concludes_with_and_without (.error failure) hsent hmany hrequest hanswers
  refine ⟨fewer, hreduced, ?_⟩
  intro full reduced others
  have hothers : full.statuses.keeping others = reduced.statuses.keeping others := by
    have hstart := keeping_start (filter_askedSources hapart hrequest) options.seedStatuses
    rw [← statuses_of_sent hsent, ← statuses_of_sent hreduced] at hstart
    have hconfined : (⟨request, .error failure⟩ : Arrival).Confined := nofun
    rw [hfull.statuses, hfewer.statuses]
    exact keeping_foldl_of_confined hconfined hstart _ _
  refine ⟨hfull.state, hfull.told, hfewer.state, ?_, hothers, fun key hkey => ?_,
    fun id hid => ?_⟩
  · rw [hfull.view, hfewer.view, hview]
    simp only [foldl_viewAfter_of_failure]
  · have hprepared := (prepared_of_sent hsent).keeps hfull.keeps
    have hprepared' := (prepared_of_sent hreduced).keeps hfewer.keeps
    rw [hprepared.staged, hprepared'.staged]
    refine PageTracker.find?_following_of_keeping hothers (fun id hid => hkey id ?_) _ _
    simpa [others] using hid
  · -- No other reply is about the sources of the request, before the failure or after it.
    obtain ⟨hown, -, hnot⟩ := apart_of_getElem? hapart hrequest
    rw [repliesTo_append] at hanswers hconfined
    have hsource : id ∈ askedSources requests :=
      mem_askedSources.2 ⟨request, List.mem_of_getElem? hrequest, hid⟩
    have hstatus : session.statuses.status id = .asked id := by
      rw [statuses_of_sent hsent, status, find?_start options.seedStatuses hsource,
        Option.getD_some]
    have hunlisted : id ∉ answeredSources (repliesTo round front ++ repliesTo round back) :=
      fun hmem => hnot id hid ((answeredSources_perm hanswers).mem_iff.1 hmem)
    rw [hfull.statuses, find?_foldl_of_failure hown hid hconfined hunlisted, hstatus]
    rfl

theorem unauthorized_site_is_contained :
    let base := ofThreeSources.baseRequest {}
    let home := base.forGroup .fresh .localSites ["home"]
    let first := base.forGroup .fresh (.site "first") ["first"]
    let second := base.forGroup .fresh (.site "second") ["second"]
    let session := ofThreeSources.sendRound {} [home, first, second]
    let front : List Turn := [.arrives ⟨second, .ok ⟨[View.titled "a" "Record" none], []⟩⟩, .poll]
    let back : List Turn :=
      [.arrives ⟨home, .ok ⟨[View.titled "a" "Copy" none],
        [⟨"home", some 5, some 1, none, none, []⟩]⟩⟩, .nextUpdate]
    let full := session.drained
      (front ++ .arrives ⟨first, .error (.unauthorized "first" none)⟩ :: back)
    ofThreeSources.start {} = (.ok (.dispatched 1 [home, first, second]), session) ∧
      ([home, first, second].flatMap Request.sources).Nodup ∧
      (repliesTo 1 (front ++ back)).map Arrival.request = [second, home] ∧
      (∀ arrival ∈ repliesTo 1 (front ++ back), arrival.Confined) ∧
      ∃ fewer, (ofThreeSources.leavingOut 1).start {} =
          (.ok (.dispatched 1 [home, second]), fewer) ∧
        full.view = (fewer.drained (front ++ back)).view ∧
        full.statuses.find? "first" = some ⟨"first", false, some false, none, 0, none, []⟩ := by
  intro base home first second session front back full
  have hrequests : [home, first, second] = ofThreeSources.roundRequests {} := by decide +kernel
  have hsent : ofThreeSources.start {} = (.ok (.dispatched 1 [home, first, second]), session) :=
    start_eq_dispatched_iff.2 ⟨⟨by rfl, nofun⟩, hrequests, nofun, rfl, rfl⟩
  have hapart : ([home, first, second].flatMap Request.sources).Nodup := by decide +kernel
  have hanswers : (repliesTo 1 (front ++ back)).map Arrival.request = [second, home] := by
    decide +kernel
  have hconfined : ∀ arrival ∈ repliesTo 1 (front ++ back), arrival.Confined := by decide +kernel
  have hothers : ((repliesTo 1 (front ++ back)).map Arrival.request).Perm
      ([home, first, second].eraseIdx 1) := by
    rw [hanswers]
    exact .swap home second []
  obtain ⟨fewer, hfewer, -, -, -, hview, -, -, hstatuses⟩ :=
    failure_is_contained (.unauthorized "first" none) hsent (by decide) hapart rfl hothers hconfined
  exact ⟨hsent, hapart, hanswers, hconfined, fewer, hfewer, hview,
    hstatuses "first" List.mem_cons_self⟩

end Session

end CatalogSearch
