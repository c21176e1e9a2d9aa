import CatalogSearch.Proofs.Session.Pulling
import CatalogSearch.Proofs.Rosters

/-!
# Changes of the status board

A reply changes statuses one after the other, and each change settles one of them:
it is not pending any more and known to have succeeded or failed.  This is all that
the reports, the completion and the failure of a request have in common, and all
that is needed to see what becomes of a board.
-/

namespace CatalogSearch

theorem Session.mem_askedSources {requests : List Request} {id : String} :
    id ∈ Session.askedSources requests ↔ ∃ request ∈ requests, id ∈ request.sources := by
  rw [Session.askedSources, List.mem_eraseDups, List.mem_flatMap]

namespace StatusBoard

/-- No two statuses on a board are of one source. -/
def Distinct (board : StatusBoard) : Prop := (board.map Status.id).Nodup

/-- The board waits for a source. -/
def Waits (board : StatusBoard) (id : String) : Prop :=
  ∃ status, board.find? id = some status ∧ status.pending = true

/-- The board tells whether a source succeeded. -/
def Judges (board : StatusBoard) (id : String) : Prop :=
  ∃ status, board.find? id = some status ∧ status.successful.isSome = true

theorem waits_of_mem {board : StatusBoard} (h : board.Distinct) {status : Status}
    (hmem : status ∈ board) (hpending : status.pending = true) : board.Waits status.id :=
  ⟨status, Roster.find?_of_mem Status.id h hmem, hpending⟩

/-! ## Settling a status -/

/-- A change after which a status is not pending.  Where it was pending or known to
have succeeded or failed, it is known afterwards. -/
structure Settles (change : Status → Status) : Prop where
  id : ∀ status, (change status).id = status.id
  pending : ∀ status, (change status).pending = false
  successful : ∀ status, status.pending = true ∨ status.successful.isSome = true →
    (change status).successful.isSome = true

theorem settles_reported (report : Answer.Report) : Settles (reported report) :=
  ⟨fun _ => rfl, fun _ => rfl, fun _ _ => rfl⟩

theorem settles_failed : Settles failed := ⟨fun _ => rfl, fun _ => rfl, fun _ _ => rfl⟩

theorem settles_completed : Settles completed := by
  constructor <;> intro status <;> cases hpending : status.pending <;> simp [completed, hpending]

theorem distinct_update {board : StatusBoard} (h : board.Distinct) (id : String)
    {change : Status → Status} (hchange : Settles change) : (board.update id change).Distinct :=
  have hasked : (Status.asked id).id = id := rfl
  Roster.nodup_map_enter Status.id hasked hchange.id h

theorem find?_update_self (board : StatusBoard) (id : String) {change : Status → Status}
    (hchange : Settles change) :
    (board.update id change).find? id = some (change (board.status id)) :=
  Roster.find?_enter_self Status.id id (.asked id) change rfl hchange.id board

theorem find?_update_other (board : StatusBoard) {id other : String} (h : other ≠ id)
    {change : Status → Status} (hchange : Settles change) :
    (board.update id change).find? other = board.find? other :=
  Roster.find?_enter_other Status.id h (.asked id) change rfl hchange.id board

theorem status_update_self (board : StatusBoard) (id : String) {change : Status → Status}
    (hchange : Settles change) : (board.update id change).status id = change (board.status id) := by
  rw [status, find?_update_self board id hchange, Option.getD_some]

theorem status_update_other (board : StatusBoard) {id other : String} (h : other ≠ id)
    {change : Status → Status} (hchange : Settles change) :
    (board.update id change).status other = board.status other := by
  rw [status, find?_update_other board h hchange, status]

/-- From a board to another one by settling some sources one after the other. -/
inductive Updates : List String → StatusBoard → StatusBoard → Prop
  | nil (board : StatusBoard) : Updates [] board board
  | cons {id : String} {ids : List String} {board after : StatusBoard}
      {change : Status → Status} (hchange : Settles change)
      (hrest : Updates ids (board.update id change) after) : Updates (id :: ids) board after

namespace Updates

variable {ids more : List String} {board between after : StatusBoard}

theorem append (h : Updates ids board between) (hmore : Updates more between after) :
    Updates (ids ++ more) board after := by
  induction h with
  | nil => exact hmore
  | cons hchange _ ih => exact .cons hchange (ih hmore)

theorem distinct (h : Updates ids board after) (hboard : board.Distinct) : after.Distinct := by
  induction h with
  | nil => exact hboard
  | cons hchange _ ih => exact ih (distinct_update hboard _ hchange)

/-- What is settled is not waited for, and nothing else starts to be. -/
theorem waits (h : Updates ids board after) {id : String} (hwaits : after.Waits id) :
    id ∉ ids ∧ board.Waits id := by
  induction h with
  | nil => exact ⟨List.not_mem_nil, hwaits⟩
  | @cons settled ids board after change hchange _ ih =>
    obtain ⟨hids, status, hfind, hpending⟩ := ih hwaits
    by_cases heq : id = settled
    · subst heq
      rw [find?_update_self board id hchange, Option.some.injEq] at hfind
      rw [← hfind, hchange.pending] at hpending
      cases hpending
    · rw [find?_update_other board heq hchange] at hfind
      exact ⟨by simp [heq, hids], status, hfind, hpending⟩

/-- A source that is waited for or judged is so afterwards. -/
theorem watched (h : Updates ids board after) {id : String}
    (hwatched : board.Waits id ∨ board.Judges id) : after.Waits id ∨ after.Judges id := by
  induction h with
  | nil => exact hwatched
  | @cons settled ids board after change hchange _ ih =>
    apply ih
    by_cases heq : id = settled
    · subst heq
      refine .inr ⟨_, find?_update_self board id hchange, hchange.successful _ ?_⟩
      obtain ⟨status, hfind, hpending⟩ | ⟨status, hfind, hsuccessful⟩ := hwatched
      · exact .inl (by simpa [StatusBoard.status, hfind] using hpending)
      · exact .inr (by simpa [StatusBoard.status, hfind] using hsuccessful)
    · simpa only [Waits, Judges, find?_update_other board heq hchange] using hwatched

/-- Sources that are on a board are settled in their places. -/
theorem ids_eq (h : Updates ids board after) (hids : ids ⊆ board.map Status.id) :
    after.map Status.id = board.map Status.id := by
  induction h with
  | nil => rfl
  | @cons id ids board after change hchange _ ih =>
    obtain ⟨hid, hids⟩ := List.cons_subset.1 hids
    have hmap : (board.update id change).map Status.id = board.map Status.id :=
      Roster.map_enter_of_mem Status.id (.asked id) hchange.id hid
    rw [ih (hmap.symm ▸ hids), hmap]

/-- A source that is not settled keeps its status. -/
theorem status_eq (h : Updates ids board after) {id : String} (hid : id ∉ ids) :
    after.status id = board.status id := by
  induction h with
  | nil => rfl
  | cons hchange _ ih =>
    rw [List.mem_cons, not_or] at hid
    obtain ⟨hne, hid⟩ := hid
    rw [ih hid, status_update_other _ hne hchange]

end Updates

theorem updates_reportAll (board : StatusBoard) (reports : List Answer.Report) :
    Updates (reports.map Answer.Report.id) board (board.reportAll reports).1 := by
  induction reports generalizing board with
  | nil => exact .nil board
  | cons report reports ih => exact .cons (settles_reported report) (ih _)

theorem updates_complete (board : StatusBoard) (ids : List String) :
    Updates ids board (board.complete ids).1 := by
  induction ids generalizing board with
  | nil => exact .nil board
  | cons id ids ih => exact .cons settles_completed (ih _)

theorem updates_fail (board : StatusBoard) (ids : List String) :
    Updates ids board (board.fail ids).1 := by
  induction ids generalizing board with
  | nil => exact .nil board
  | cons id ids ih => exact .cons settles_failed (ih _)

/-- A reply settles every source of its request, and maybe others. -/
theorem updates_boardAfter (board : StatusBoard) (arrival : Arrival) :
    ∃ ids, arrival.request.sources ⊆ ids ∧
      Updates ids board (Session.boardAfter board arrival) := by
  obtain ⟨request, failure | answer⟩ := arrival
  · exact ⟨request.sources, fun _ hid => hid, updates_fail board request.sources⟩
  · refine ⟨answer.reports.map Answer.Report.id ++ request.sources, ?_, ?_⟩
    · exact fun _ hid => List.mem_append_right _ hid
    · exact (updates_reportAll board answer.reports).append (updates_complete _ request.sources)

/-! ## The board of a new round -/

theorem mem_start {ids : List String} {seeds : List Status} {status : Status} :
    status ∈ start ids seeds ↔
      (status ∈ seeds ∧ status.id ∉ ids) ∨ ∃ id ∈ ids, .asked id = status := by
  simp [start]

/-- A new board shows every source that is asked. -/
theorem mem_ids_start {ids : List String} (seeds : List Status) {id : String} (h : id ∈ ids) :
    id ∈ (start ids seeds).map Status.id :=
  List.mem_map.2 ⟨.asked id, mem_start.2 (.inr ⟨id, h, rfl⟩), rfl⟩

/-- A source that is asked has not answered, whatever was seeded. -/
theorem find?_start {ids : List String} (seeds : List Status) {id : String} (h : id ∈ ids) :
    (start ids seeds).find? id = some (.asked id) := by
  have hsome : ((start ids seeds).find? id).isSome = true := by
    obtain ⟨status, hstatus, hid⟩ := List.mem_map.1 (mem_ids_start seeds h)
    rw [find?, Roster.isSome_find?]
    exact List.any_eq_true.2 ⟨status, hstatus, beq_iff_eq.2 hid⟩
  obtain ⟨status, hfind⟩ := Option.isSome_iff_exists.1 hsome
  obtain ⟨hmem, hid⟩ := Roster.mem_of_find? Status.id hfind
  obtain ⟨-, hnot⟩ | ⟨asked, -, rfl⟩ := mem_start.1 hmem
  · exact absurd h (hid ▸ hnot)
  · rw [hfind, ← hid]
    rfl

/-- Without seeds a new board has asked for all its sources. -/
theorem start_nil (ids : List String) : start ids [] = ids.map Status.asked := rfl

theorem ids_start_nil (ids : List String) : (start ids []).map Status.id = ids := by
  rw [start_nil, List.map_map]
  exact List.map_id ids

theorem status_start_nil (ids : List String) (id : String) : (start ids []).status id = .asked id := by
  cases hfind : (start ids []).find? id with
  | none => rw [status, hfind, Option.getD_none]
  | some status =>
    obtain ⟨hmem, hid⟩ := Roster.mem_of_find? Status.id hfind
    rw [start_nil, List.mem_map] at hmem
    obtain ⟨asked, -, rfl⟩ := hmem
    rw [StatusBoard.status, hfind, ← hid]
    rfl

theorem distinct_start {ids : List String} (hids : ids.Nodup) {seeds : List Status}
    (hseeds : Distinct seeds) : (start ids seeds).Distinct := by
  have hasked : (ids.map Status.asked).map Status.id = ids := by
    rw [List.map_map]
    exact List.map_id ids
  rw [Distinct, start, List.map_append, hasked, List.nodup_append]
  refine ⟨?_, hids, ?_⟩
  · exact hseeds.sublist (List.filter_sublist.map Status.id)
  · intro kept hkept asked hmem heq
    obtain ⟨status, hstatus, rfl⟩ := List.mem_map.1 hkept
    obtain ⟨-, hnot⟩ := List.mem_filter.1 hstatus
    simp [heq, hmem] at hnot

/-- Every source that is asked is waited for. -/
theorem waits_start {ids : List String} (hids : ids.Nodup) {seeds : List Status}
    (hseeds : Distinct seeds) {id : String} (h : id ∈ ids) : (start ids seeds).Waits id := by
  have hmem : Status.asked id ∈ start ids seeds := mem_start.2 (.inr ⟨id, h, rfl⟩)
  exact ⟨_, Roster.find?_of_mem Status.id (distinct_start hids hseeds) hmem, rfl⟩

/-- If no seed is pending, only sources that are asked are waited for. -/
theorem mem_of_waits_start {ids : List String} {seeds : List Status}
    (hseeds : ∀ status ∈ seeds, status.pending = false) {id : String}
    (h : (start ids seeds).Waits id) : id ∈ ids := by
  obtain ⟨status, hfind, hpending⟩ := h
  obtain ⟨hmem, rfl⟩ := Roster.mem_of_find? Status.id hfind
  obtain ⟨hseed, -⟩ | ⟨asked, hasked, rfl⟩ := mem_start.1 hmem
  · rw [hseeds status hseed] at hpending
    cases hpending
  · exact hasked

/-! ## The end of waiting -/

/-- The status when nothing is waited for any more. -/
def finished (status : Status) : Status := { status with pending := false }

theorem find?_finish (board : StatusBoard) (id : String) :
    board.finish.find? id = (board.find? id).map finished := by
  have hname : ∀ status, (finished status).id = status.id := fun _ => rfl
  exact Roster.find?_map Status.id id hname board

theorem distinct_finish {board : StatusBoard} (h : board.Distinct) : board.finish.Distinct := by
  have hids : board.finish.map Status.id = board.map Status.id := by
    rw [finish, List.map_map]
    rfl
  rwa [Distinct, hids]

theorem judges_finish {board : StatusBoard} {id : String} (h : board.Judges id) :
    board.finish.Judges id := by
  obtain ⟨status, hfind, hsuccessful⟩ := h
  refine ⟨finished status, ?_, hsuccessful⟩
  rw [find?_finish, hfind]
  rfl

theorem not_waits_finish (board : StatusBoard) (id : String) : ¬board.finish.Waits id := by
  rintro ⟨status, hfind, hpending⟩
  rw [find?_finish] at hfind
  obtain ⟨before, -, rfl⟩ := Option.map_eq_some_iff.1 hfind
  cases hpending

end StatusBoard

end CatalogSearch
