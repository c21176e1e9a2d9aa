import CatalogSearch.Proofs.Session.Listed
import CatalogSearch.Proofs.Session.Turns
import CatalogSearch.Proofs.View.Merging

/-!
# Replies in any order

What a session shows of a round does not depend on the order in which the replies came.
Each reply changes the statuses of the sources of its own request, in their places on the
board, so two replies can change the board in either order; and each adds the ids of its
records to those in view, whichever of the records of an id it is that stands.
-/

namespace CatalogSearch

namespace StatusBoard

variable {board : StatusBoard} {changes more : List Change}

/-- The board after some changes of statuses that are on it. -/
def adjustAll (board : StatusBoard) (changes : List Change) : StatusBoard :=
  changes.foldl (fun board change => Roster.adjust Status.id change.1 change.2 board) board

/-- Changes of sources that are on the board are made in their places. -/
theorem updateAll_eq_adjustAll (hsettles : ∀ change ∈ changes, Settles change.2)
    (hlisted : ∀ change ∈ changes, change.1 ∈ board.map Status.id) :
    board.updateAll changes = board.adjustAll changes := by
  induction changes generalizing board with
  | nil => rfl
  | cons change changes ih =>
    obtain ⟨hchange, hrest⟩ := List.forall_mem_cons.1 hsettles
    obtain ⟨hmem, hothers⟩ := List.forall_mem_cons.1 hlisted
    have hupdate : board.update change.1 change.2 =
        Roster.adjust Status.id change.1 change.2 board := Roster.enter_eq_adjust Status.id (.asked change.1) hmem
    have hids : (Roster.adjust Status.id change.1 change.2 board).map Status.id =
        board.map Status.id := Roster.map_adjust Status.id change.1 change.2 hchange.id board
    rw [updateAll, List.foldl_cons, hupdate]
    exact ih hrest (hids.symm ▸ hothers)

theorem adjust_adjustAll {id : String} {change : Status → Status} (hchange : Settles change)
    (hsettles : ∀ other ∈ changes, Settles other.2) (hapart : ∀ other ∈ changes, id ≠ other.1)
    (board : StatusBoard) :
    adjustAll (Roster.adjust Status.id id change board) changes =
      Roster.adjust Status.id id change (board.adjustAll changes) := by
  induction changes generalizing board with
  | nil => rfl
  | cons other changes ih =>
    obtain ⟨hother, hrest⟩ := List.forall_mem_cons.1 hsettles
    obtain ⟨hne, hothers⟩ := List.forall_mem_cons.1 hapart
    rw [adjustAll, List.foldl_cons, Roster.adjust_adjust_comm hne hchange.id hother.id]
    exact ih hrest hothers _

/-- Changes of different sources can be made in either order. -/
theorem adjustAll_comm (hsettles : ∀ change ∈ changes, Settles change.2)
    (hmore : ∀ other ∈ more, Settles other.2)
    (hapart : ∀ change ∈ changes, ∀ other ∈ more, change.1 ≠ other.1) (board : StatusBoard) :
    (board.adjustAll changes).adjustAll more = (board.adjustAll more).adjustAll changes := by
  induction changes generalizing board with
  | nil => rfl
  | cons change changes ih =>
    obtain ⟨hchange, hrest⟩ := List.forall_mem_cons.1 hsettles
    obtain ⟨hne, hothers⟩ := List.forall_mem_cons.1 hapart
    change ((adjustAll (Roster.adjust Status.id change.1 change.2 board) changes).adjustAll more) =
      adjustAll (Roster.adjust Status.id change.1 change.2 (board.adjustAll more)) changes
    rw [ih hrest hothers, adjust_adjustAll hchange hmore hne]

end StatusBoard

open StatusBoard

namespace Session

variable {first second arrivals : List Arrival} {board : StatusBoard}

/-! ## The board -/

/-- Replies that keep to their own sources, which are on the board, change it in place. -/
theorem foldl_boardAfter_in_place (hconfined : ∀ arrival ∈ arrivals, arrival.Confined)
    (hlisted : answeredSources arrivals ⊆ board.map Status.id) :
    arrivals.foldl boardAfter board =
      arrivals.foldl (fun board arrival => board.adjustAll arrival.changes) board := by
  have hmem : ∀ change ∈ allChanges arrivals, change.1 ∈ board.map Status.id :=
    fun change hchange => hlisted (mem_answeredSources_of_mem_allChanges hconfined change hchange)
  rw [foldl_boardAfter_eq, updateAll_eq_adjustAll settles_of_mem_allChanges hmem, adjustAll,
    allChanges, List.foldl_flatMap]
  rfl

/-- Two replies to requests without a source in common change a board in either order alike. -/
theorem adjustAll_changes_comm {arrival other : Arrival} (h : arrival.Confined)
    (hother : other.Confined)
    (hapart : List.Disjoint arrival.request.sources other.request.sources)
    (board : StatusBoard) :
    (board.adjustAll arrival.changes).adjustAll other.changes =
      (board.adjustAll other.changes).adjustAll arrival.changes := by
  refine adjustAll_comm (fun _ => Arrival.settles_of_mem_changes)
    (fun _ => Arrival.settles_of_mem_changes) (fun change hchange another hanother heq => ?_) board
  have hsource := h.mem_sources hchange
  have hsource' := hother.mem_sources hanother
  exact hapart hsource (heq ▸ hsource')

/-- Replies to requests without a source in common change the board in any order alike.  Their
sources have to be on it: those that are not would be entered in the order of the replies. -/
theorem foldl_boardAfter_perm (hsame : first.Perm second)
    (hapart : (answeredSources first).Nodup) (hconfined : ∀ arrival ∈ first, arrival.Confined)
    (hlisted : answeredSources first ⊆ board.map Status.id) :
    first.foldl boardAfter board = second.foldl boardAfter board := by
  have hconfined' : ∀ arrival ∈ second, arrival.Confined :=
    fun arrival harrival => hconfined arrival (hsame.mem_iff.2 harrival)
  have hlisted' : answeredSources second ⊆ board.map Status.id :=
    fun id hid => hlisted ((hsame.flatMap_right _).mem_iff.2 hid)
  have hpairs : first.Pairwise fun arrival other => ∀ board : StatusBoard,
      (board.adjustAll arrival.changes).adjustAll other.changes =
        (board.adjustAll other.changes).adjustAll arrival.changes :=
    (List.nodup_flatMap.1 hapart).2.imp_of_mem fun harrival hother hdisjoint =>
      adjustAll_changes_comm (hconfined _ harrival) (hconfined _ hother) hdisjoint
  -- Pairs are taken in the order of the list; a reply commutes with itself, whatever it reports.
  have hcomm := hpairs.forall_of_forall_of_flip (fun _ _ _ => rfl)
    (hpairs.imp fun h board => (h board).symm)
  calc
    first.foldl boardAfter board =
        first.foldl (fun board arrival => board.adjustAll arrival.changes) board :=
      foldl_boardAfter_in_place hconfined hlisted
    _ = second.foldl (fun board arrival => board.adjustAll arrival.changes) board :=
      hsame.foldl_eq' (fun _ harrival _ hother board => hcomm harrival hother board) board
    _ = second.foldl boardAfter board := (foldl_boardAfter_in_place hconfined' hlisted').symm

/-! ## The view -/

/-- Whether a reply brings a record of an id. -/
def brings (id : String) (arrival : Arrival) : Bool :=
  match arrival.reply with
  | .ok answer => answer.items.any fun item => item.metacard.id? == some id
  | .error _ => false

/-- A view that merges what arrives, and has merged it. -/
structure Merges (view : View) : Prop where
  auto : view.autoMerge = true
  queue : view.queue = []

theorem viewWith_of_merges {view : View} (h : Merges view) (asked : String)
    (items : List Answer.Item) : viewWith view asked items = (view.enqueue asked items).merge :=
  if_pos h.auto

theorem Merges.viewAfter {view : View} (h : Merges view) (arrival : Arrival) :
    Merges (viewAfter view arrival) := by
  obtain ⟨request, failure | answer⟩ := arrival
  · exact h
  · change Merges (viewWith view _ answer.items)
    rw [viewWith_of_merges h]
    exact ⟨h.auto, rfl⟩

theorem contains_viewAfter {view : View} (h : Merges view) (arrival : Arrival) (id : String) :
    (viewAfter view arrival).contains id = (view.contains id || brings id arrival) := by
  obtain ⟨request, failure | answer⟩ := arrival
  · exact (Bool.or_false _).symm
  · change (viewWith view _ answer.items).contains id = _
    rw [viewWith_of_merges h]
    exact View.contains_merge_enqueue h.queue _ answer.items id

/-- In view are the ids that were, and those that some reply brings. -/
theorem contains_foldl_viewAfter {view : View} (h : Merges view) (arrivals : List Arrival)
    (id : String) :
    (arrivals.foldl viewAfter view).contains id =
      (view.contains id || arrivals.any (brings id)) := by
  induction arrivals generalizing view with
  | nil => exact (Bool.or_false _).symm
  | cons arrival arrivals ih =>
    rw [List.foldl_cons, ih (h.viewAfter arrival), contains_viewAfter h, Bool.or_assoc,
      List.any_cons]

/-! ## The round -/

/-- Replies to all requests of a round answer for the sources of the requests. -/
theorem answeredSources_perm {requests : List Request}
    (h : (arrivals.map Arrival.request).Perm requests) :
    (answeredSources arrivals).Perm (requests.flatMap Request.sources) := by
  have hmap : answeredSources arrivals =
      (arrivals.map Arrival.request).flatMap Request.sources := (List.flatMap_map ..).symm
  rw [hmap]
  exact h.flatMap_right _

section

variable {before session : Session} {options : SearchOptions} {round : RoundId}
  {requests : List Request}

/-- The board of a round that was sent shows the sources of its requests. -/
theorem subset_ids_of_sent
    (hsent : before.start options = (.ok (.dispatched round requests), session)) :
    requests.flatMap Request.sources ⊆ session.statuses.map Status.id := by
  rw [statuses_of_sent hsent]
  intro id hid
  exact mem_ids_start options.seedStatuses (mem_askedSources.2 (List.mem_flatMap.1 hid))

/-- When a round is sent, there is a view, and nothing queued. -/
theorem exists_view_of_sent
    (hsent : before.start options = (.ok (.dispatched round requests), session)) :
    ∃ view, session.view = some view ∧ view.queue = [] := by
  obtain ⟨-, -, -, -, rfl⟩ := start_eq_dispatched_iff.1 hsent
  exact ⟨_, rfl, View.queue_restart _ _ _⟩

end

/-- A round that was sent to sources of which none is asked twice comes to the same end in
whatever order the replies to its requests arrive, each of which reports on the sources of its
own request only, and in whatever turns they are pulled: to the same statuses, the same number
of hits, the same answer whether there is a next page, and the same offsets staged for it.  The
ids in view are the same too, if results are merged as they arrive. -/
theorem end_of_round_is_independent_of_order {before session : Session}
    {options : SearchOptions} {round : RoundId} {requests : List Request}
    {turns others : List Turn}
    (hsent : before.start options = (.ok (.dispatched round requests), session))
    (hapart : (requests.flatMap Request.sources).Nodup)
    (hanswers : ((repliesTo round turns).map Arrival.request).Perm requests)
    (hsame : (repliesTo round turns).Perm (repliesTo round others))
    (hconfined : ∀ arrival ∈ repliesTo round turns, arrival.Confined) :
    let one := session.drained turns
    let other := session.drained others
    one.state = .settled ∧ other.state = .settled ∧ one.statuses = other.statuses ∧
      one.totalHits = other.totalHits ∧ one.hasNextPage = other.hasNextPage ∧
      one.nextPage.2.tracker.next = other.nextPage.2.tracker.next ∧
      (session.view.any View.autoMerge = true →
        ∀ id, one.view.any (·.contains id) = other.view.any (·.contains id)) := by
  intro one other
  have hone : Concludes session one round (repliesTo round turns) :=
    concludes_drained hsent hanswers
  have hother : Concludes session other round (repliesTo round others) :=
    concludes_drained hsent ((hsame.map _).symm.trans hanswers)
  have hsources := answeredSources_perm hanswers
  have hstatuses : one.statuses = other.statuses := by
    rw [hone.statuses, hother.statuses]
    refine foldl_boardAfter_perm hsame (hsources.nodup_iff.2 hapart) hconfined fun id hid => ?_
    exact subset_ids_of_sent hsent (hsources.mem_iff.1 hid)
  have hprepared := (prepared_of_sent hsent).keeps hone.keeps
  have hprepared' := (prepared_of_sent hsent).keeps hother.keeps
  refine ⟨hone.state, hother.state, hstatuses, congrArg StatusBoard.totalHits hstatuses, ?_, ?_,
    fun hauto id => ?_⟩
  · rw [hprepared.hasNextPage, hprepared'.hasNextPage, hstatuses]
  · rw [hprepared.staged, hprepared'.staged, hstatuses]
  · obtain ⟨view, hview, hqueue⟩ := exists_view_of_sent hsent
    rw [hview] at hauto
    have hmerges : Merges view := ⟨hauto, hqueue⟩
    rw [hone.view, hother.view, hview]
    change (List.foldl viewAfter view _).contains id = (List.foldl viewAfter view _).contains id
    rw [contains_foldl_viewAfter hmerges, contains_foldl_viewAfter hmerges, hsame.any_eq]

theorem three_replies_forward_and_backward :
    let requests := ofThreeSources.roundRequests {}
    let session := ofThreeSources.sendRound {} requests
    let replies := requests.zipWith Arrival.mk
      [.ok ⟨[View.titled "a" "Record" none], [⟨"home", some 5, some 1, none, none, []⟩]⟩,
        .error .timedOut,
        .ok ⟨[View.titled "a" "Copy" none, View.titled "b" "Other" none],
          [⟨"second", some 7, some 2, none, none, []⟩]⟩]
    let turns := replies.map .arrives ++ [.poll]
    let others := replies.reverse.flatMap fun reply => [.arrives reply, .nextUpdate]
    ofThreeSources.start {} = (.ok (.dispatched 1 requests), session) ∧
      (requests.flatMap Request.sources).Nodup ∧
      (repliesTo 1 turns).map Arrival.request = requests ∧
      repliesTo 1 others = (repliesTo 1 turns).reverse ∧
      (∀ arrival ∈ repliesTo 1 turns, arrival.Confined) ∧
      (session.drained turns).statuses = (session.drained others).statuses ∧
      (session.drained turns).totalHits = 12 := by
  intro requests session replies turns others
  have hsent : ofThreeSources.start {} = (.ok (.dispatched 1 requests), session) :=
    start_eq_dispatched_iff.2 ⟨⟨by rfl, nofun⟩, rfl, by decide +kernel, rfl, rfl⟩
  have hapart : (requests.flatMap Request.sources).Nodup := by decide +kernel
  have hanswers : (repliesTo 1 turns).map Arrival.request = requests := by decide +kernel
  have hreversed : repliesTo 1 others = (repliesTo 1 turns).reverse := by rfl
  have hconfined : ∀ arrival ∈ repliesTo 1 turns, arrival.Confined := by decide +kernel
  have hsame : (repliesTo 1 turns).Perm (repliesTo 1 others) := by
    rw [hreversed]
    exact (List.reverse_perm _).symm
  have hend := end_of_round_is_independent_of_order hsent hapart (.of_eq hanswers) hsame hconfined
  exact ⟨hsent, hapart, hanswers, hreversed, hconfined, hend.2.2.1, by decide +kernel⟩

end Session

end CatalogSearch
