import CatalogSearch.Proofs.Paging.Advance
import CatalogSearch.Proofs.Session.Board

/-!
# Archives

An archive holds the records that each group of sources has for a search, in order.  An
honest answer to a request is the slice of these that the request asks for, with reports
that tell of the sources of the request how many records they have and how many of them
are in the slice.  What the sources of a group tell together is all that the board has to
know of them.
-/

namespace CatalogSearch

/-- The records that each group of sources has for a search. -/
structure Archive where
  records : Group → List Answer.Item

namespace Archive

/-- The records of an archive that a request asks for. -/
def slice (archive : Archive) (request : Request) : List Answer.Item :=
  ((archive.records request.group).drop (request.start.toNat - 1)).take request.count.toNat

/-- An answer with the slice of a request, which its reports, of which those on one source
agree, divide among the sources of the request. -/
structure Answers (archive : Archive) (request : Request) (answer : Answer) : Prop where
  items : answer.items = archive.slice request
  reports : ∃ hits counts : String → UInt64,
    (∀ report ∈ answer.reports,
      report.hits.getD 0 = hits report.id ∧ report.count.getD 0 = counts report.id) ∧
    (∀ id ∈ request.sources, id ∉ answer.reports.map Answer.Report.id →
      hits id = 0 ∧ counts id = 0) ∧
    (request.sources.map fun id => (hits id).toNat).sum =
      (archive.records request.group).length ∧
    (request.sources.map fun id => (counts id).toNat).sum = (archive.slice request).length

/-- A reply that reports on the sources of its request only and, unless it comes from the
cache, is an answer from the archive. -/
structure Honest (archive : Archive) (request : Request) (reply : Reply) : Prop where
  reports : ∀ answer, reply = .ok answer →
    ∀ report ∈ answer.reports, report.id ∈ request.sources
  answers : request.group ≠ .cache → ∃ answer, reply = .ok answer ∧ archive.Answers request answer

end Archive

namespace StatusBoard

variable {hits counts : String → UInt64} {reports : List Answer.Report} {board : StatusBoard}
  {id : String}

/-! ## What reports tell -/

/-- A report tells what it is to tell of its source, if nothing else was told before. -/
theorem status_report {report : Answer.Report} {hits count : UInt64}
    (hhits : report.hits.getD 0 = hits) (hcount : report.count.getD 0 = count)
    (hbefore : (board.status report.id).hits.getD 0 = 0 ∨
      (board.status report.id).hits.getD 0 = hits) :
    ((board.report report).status report.id).hits.getD 0 = hits ∧
      ((board.report report).status report.id).count = count := by
  rw [StatusBoard.report, status_update_self _ _ (settles_reported report), reported]
  refine ⟨?_, hcount⟩
  cases hnone : report.hits with
  | some value => rwa [hnone] at hhits
  | none =>
    rw [hnone, Option.getD_none] at hhits
    rw [← hhits, or_self] at hbefore
    rw [← hhits]
    exact hbefore

/-- Reports that agree tell of the sources that they are about. -/
theorem status_reportAll
    (hreports : ∀ report ∈ reports,
      report.hits.getD 0 = hits report.id ∧ report.count.getD 0 = counts report.id)
    (hbefore : (board.status id).hits.getD 0 = 0 ∨ (board.status id).hits.getD 0 = hits id)
    (hid : id ∈ reports.map Answer.Report.id) :
    ((board.reportAll reports).1.status id).hits.getD 0 = hits id ∧
      ((board.reportAll reports).1.status id).count = counts id := by
  induction reports generalizing board with
  | nil => cases hid
  | cons report reports ih =>
    obtain ⟨⟨hhits, hcount⟩, hrest⟩ := List.forall_mem_cons.1 hreports
    change (((board.report report).reportAll reports).1.status id).hits.getD 0 = hits id ∧
      (((board.report report).reportAll reports).1.status id).count = counts id
    by_cases hself : id = report.id
    · subst hself
      have hshown := status_report hhits hcount hbefore
      by_cases hagain : report.id ∈ reports.map Answer.Report.id
      · exact ih hrest (.inr hshown.1) hagain
      · rwa [(updates_reportAll _ reports).status_eq hagain]
    · have hsame : (board.report report).status id = board.status id :=
        status_update_other board hself (settles_reported report)
      exact ih hrest (hsame ▸ hbefore) ((List.mem_cons.1 hid).resolve_left hself)

/-- Completing a request changes no numbers. -/
theorem status_complete (board : StatusBoard) (ids : List String) (id : String) :
    ((board.complete ids).1.status id).hits = (board.status id).hits ∧
      ((board.complete ids).1.status id).count = (board.status id).count := by
  induction ids generalizing board with
  | nil => exact ⟨rfl, rfl⟩
  | cons first ids ih =>
    have hnumbers : ((board.update first completed).status id).hits = (board.status id).hits ∧
        ((board.update first completed).status id).count = (board.status id).count := by
      by_cases hself : id = first
      · subst hself
        rw [status_update_self board id settles_completed, completed]
        split <;> exact ⟨rfl, rfl⟩
      · rw [status_update_other board hself settles_completed]
        exact ⟨rfl, rfl⟩
    obtain ⟨hhits, hcount⟩ := ih (board.update first completed)
    exact ⟨hhits.trans hnumbers.1, hcount.trans hnumbers.2⟩

/-- An answer tells of a source that nothing was told of before. -/
theorem status_answeredBoard {sources : List String}
    (hreports : ∀ report ∈ reports,
      report.hits.getD 0 = hits report.id ∧ report.count.getD 0 = counts report.id)
    (hsilent : id ∉ reports.map Answer.Report.id → hits id = 0 ∧ counts id = 0)
    (hasked : board.status id = .asked id) :
    ((Session.answeredBoard board sources reports).1.status id).hits.getD 0 = hits id ∧
      ((Session.answeredBoard board sources reports).1.status id).count = counts id := by
  obtain ⟨hhits, hcount⟩ := status_complete (board.reportAll reports).1 sources id
  change (((board.reportAll reports).1.complete sources).1.status id).hits.getD 0 = _ ∧
    (((board.reportAll reports).1.complete sources).1.status id).count = _
  rw [hhits, hcount]
  by_cases hid : id ∈ reports.map Answer.Report.id
  · exact status_reportAll hreports (.inl (by rw [hasked]; rfl)) hid
  · rw [(updates_reportAll board reports).status_eq hid, hasked]
    obtain ⟨hzero, hnone⟩ := hsilent hid
    exact ⟨hzero.symm, hnone.symm⟩

/-- On a board of different sources, statuses are found by the names of their sources. -/
theorem filter_id_eq (h : board.Distinct) (keep : String → Bool) :
    (board.filter fun status => keep status.id) =
      ((board.map Status.id).filter keep).map board.status := by
  have hself : ∀ status ∈ board.filter fun status => keep status.id,
      board.status status.id = status := by
    intro status hstatus
    have hfind : board.find? status.id = some status :=
      Roster.find?_of_mem Status.id h (List.mem_filter.1 hstatus).1
    rw [StatusBoard.status, hfind]
    rfl
  rw [List.filter_map, List.map_map]
  exact ((List.map_congr_left hself).trans (List.map_id _)).symm

theorem sharing_eq (h : board.Distinct) (registry : Registry) (key : String) :
    board.sharing registry key =
      ((board.map Status.id).filter fun id =>
        id != Source.cacheId && registry.offsetKey id == key).map board.status :=
  filter_id_eq h fun id => id != Source.cacheId && registry.offsetKey id == key

end StatusBoard

namespace Archive

open StatusBoard

variable {archive : Archive} {request : Request} {board : StatusBoard}

/-- The board tells of the sources of a request what an answer from the archive does. -/
structure Told (archive : Archive) (request : Request) (board : StatusBoard) : Prop where
  hits : knownHits (request.sources.map board.status) = (archive.records request.group).length
  count : returned (request.sources.map board.status) = (archive.slice request).length

/-- What is told of a request depends on the statuses of its sources only. -/
theorem Told.congr {other : StatusBoard} (h : archive.Told request board)
    (hsame : ∀ id ∈ request.sources, other.status id = board.status id) :
    archive.Told request other := by
  have hmap : request.sources.map other.status = request.sources.map board.status :=
    List.map_congr_left hsame
  exact ⟨hmap ▸ h.hits, hmap ▸ h.count⟩

theorem told_of_answers {answer : Answer} (h : archive.Answers request answer)
    (hasked : ∀ id ∈ request.sources, board.status id = .asked id) :
    archive.Told request (Session.answeredBoard board request.sources answer.reports).1 := by
  obtain ⟨hits, counts, hreports, hsilent, hhits, hcounts⟩ := h.reports
  let after := (Session.answeredBoard board request.sources answer.reports).1
  have hshown : ∀ id ∈ request.sources,
      (after.status id).hits.getD 0 = hits id ∧ (after.status id).count = counts id :=
    fun id hid => status_answeredBoard hreports (hsilent id hid) (hasked id hid)
  constructor
  · rw [knownHits, List.map_map, ← hhits]
    exact congrArg List.sum (List.map_congr_left fun id hid =>
      congrArg UInt64.toNat (hshown id hid).1)
  · rw [returned, List.map_map, ← hcounts]
    exact congrArg List.sum (List.map_congr_left fun id hid =>
      congrArg UInt64.toNat (hshown id hid).2)

/-- An honest reply settles the sources of its request and no others. -/
theorem Honest.updates {reply : Reply} (h : archive.Honest request reply) (board : StatusBoard) :
    ∃ ids ⊆ request.sources, Updates ids board (Session.boardAfter board ⟨request, reply⟩) := by
  cases reply with
  | error failure => exact ⟨_, fun _ => id, updates_fail board request.sources⟩
  | ok answer =>
    refine ⟨_, ?_, (updates_reportAll board answer.reports).append
      (updates_complete _ request.sources)⟩
    refine List.append_subset.2 ⟨?_, fun _ => id⟩
    intro id hid
    obtain ⟨report, hreport, rfl⟩ := List.mem_map.1 hid
    exact h.reports answer rfl report hreport

/-- An answer to a request that ascribes the whole slice to the first of its sources. -/
def reply (archive : Archive) (request : Request) : Reply :=
  .ok ⟨archive.slice request,
    [⟨request.sources.head?.getD "", some (.ofNat (archive.records request.group).length),
      some (.ofNat (archive.slice request).length), none, none, []⟩]⟩

/-- A number that is ascribed to one of some sources is their sum. -/
theorem sum_ascribed {ids : List String} {id : String} (h : id ∉ ids) (number : UInt64) :
    ((id :: ids).map fun other => (if other = id then number else 0).toNat).sum =
      number.toNat := by
  have hrest : (ids.map fun other => (if other = id then number else 0).toNat).sum = 0 := by
    refine List.sum_eq_zero_iff_forall_eq_nat.2 fun value hvalue => ?_
    obtain ⟨other, hother, rfl⟩ := List.mem_map.1 hvalue
    have hne : other ≠ id := by
      rintro rfl
      exact h hother
    rw [if_neg hne]
    rfl
  rw [List.map_cons, List.sum_cons, hrest, if_pos rfl, Nat.add_zero]

/-- Such an answer is honest. -/
theorem honest_reply (hsources : request.sources ≠ []) (hnodup : request.sources.Nodup)
    (hbounded : request.group ≠ .cache → (archive.records request.group).length < 2 ^ 64) :
    archive.Honest request (archive.reply request) := by
  obtain ⟨id, ids, hcons⟩ := List.exists_cons_of_ne_nil hsources
  rw [hcons] at hnodup
  have hhead : request.sources.head?.getD "" = id := by
    rw [hcons]
    rfl
  have hle : (archive.slice request).length ≤ (archive.records request.group).length := by
    rw [slice, List.length_take, List.length_drop]
    omega
  constructor
  · rintro answer ⟨⟩ report hreport
    rw [List.mem_singleton.1 hreport, hhead, hcons]
    exact List.mem_cons_self
  · intro hcache
    have hlength := hbounded hcache
    let ascribed (number : Nat) (other : String) : UInt64 := if other = id then .ofNat number else 0
    refine ⟨_, rfl, rfl, ascribed (archive.records request.group).length,
      ascribed (archive.slice request).length, ?_, ?_, ?_, ?_⟩
    · intro report hreport
      rw [List.mem_singleton.1 hreport, hhead]
      exact ⟨(if_pos rfl).symm, (if_pos rfl).symm⟩
    · intro other _ hother
      have hne : other ≠ id := by
        rintro rfl
        exact hother (by simp [hhead])
      exact ⟨if_neg hne, if_neg hne⟩
    · rw [hcons, sum_ascribed (List.nodup_cons.1 hnodup).1]
      exact UInt64.toNat_ofNat_of_lt' hlength
    · rw [hcons, sum_ascribed (List.nodup_cons.1 hnodup).1]
      exact UInt64.toNat_ofNat_of_lt' (Nat.lt_of_le_of_lt hle hlength)

end Archive

end CatalogSearch
