import CatalogSearch.Proofs.Session.Board

/-!
# Listed sources

A reply is one change of a status after the other: its reports first, then the completion
or the failure of the sources that its request lists.  Changes of different sources do not
meet.  So the sources that a request does not list keep their statuses, unless a report of
the reply is on one of them: what a catalog reports on is not held against its request.
-/

namespace CatalogSearch

namespace StatusBoard

/-- A change of the status of a source. -/
abbrev Change := String × (Status → Status)

/-- The board after some changes, one after the other. -/
def updateAll (board : StatusBoard) (changes : List Change) : StatusBoard :=
  changes.foldl (fun board change => board.update change.1 change.2) board

/-- The statuses of the sources of some names. -/
def keeping (board : StatusBoard) (keeps : String → Bool) : StatusBoard :=
  board.filter fun status => keeps status.id

variable {board : StatusBoard} {changes : List Change} {keeps : String → Bool}

theorem updateAll_append (board : StatusBoard) (changes more : List Change) :
    board.updateAll (changes ++ more) = (board.updateAll changes).updateAll more :=
  List.foldl_append

theorem reportAll_eq (board : StatusBoard) (reports : List Answer.Report) :
    (board.reportAll reports).1 =
      board.updateAll (reports.map fun report => (report.id, reported report)) := by
  induction reports generalizing board with
  | nil => rfl
  | cons report reports ih => exact ih (board.report report)

theorem complete_eq (board : StatusBoard) (ids : List String) :
    (board.complete ids).1 = board.updateAll (ids.map fun id => (id, completed)) := by
  induction ids generalizing board with
  | nil => rfl
  | cons id ids ih => exact ih (board.update id completed)

theorem fail_eq (board : StatusBoard) (ids : List String) :
    (board.fail ids).1 = board.updateAll (ids.map fun id => (id, failed)) := by
  induction ids generalizing board with
  | nil => rfl
  | cons id ids ih => exact ih (board.update id failed)

theorem keeping_update (board : StatusBoard) (id : String) {change : Status → Status}
    (hchange : Settles change) (keeps : String → Bool) :
    (board.update id change).keeping keeps =
      if keeps id then (board.keeping keeps).update id change else board.keeping keeps :=
  have hasked : (Status.asked id).id = id := rfl
  Roster.filter_enter hasked hchange.id keeps board

/-- Changes matter to the statuses of their own sources only. -/
theorem keeping_updateAll (hsettles : ∀ change ∈ changes, Settles change.2)
    (board : StatusBoard) :
    (board.updateAll changes).keeping keeps =
      (board.keeping keeps).updateAll (changes.filter fun change => keeps change.1) := by
  induction changes generalizing board with
  | nil => rfl
  | cons change changes ih =>
    obtain ⟨hchange, hrest⟩ := List.forall_mem_cons.1 hsettles
    rw [updateAll, List.foldl_cons, ← updateAll, ih hrest, keeping_update _ _ hchange]
    cases hkeeps : keeps change.1 with
    | true =>
      rw [List.filter_cons_of_pos (by exact hkeeps), if_pos rfl]
      rfl
    | false => rw [List.filter_cons_of_neg (by simp [hkeeps]), if_neg Bool.false_ne_true]

/-- The statuses of some sources on a new board depend on which of them are asked only. -/
theorem keeping_start {ids others : List String}
    (h : ids.filter keeps = others.filter keeps) (seeds : List Status) :
    (start ids seeds).keeping keeps = (start others seeds).keeping keeps := by
  have hasked (ids : List String) :
      (ids.map Status.asked).filter (fun status => keeps status.id) =
        (ids.filter keeps).map Status.asked := List.filter_map
  have hmem (id : String) (hid : keeps id = true) : id ∈ ids ↔ id ∈ others := by
    have hiff : id ∈ ids.filter keeps ↔ id ∈ others.filter keeps := by rw [h]
    rwa [List.mem_filter, List.mem_filter, and_iff_left hid, and_iff_left hid] at hiff
  rw [keeping, keeping, start, start, List.filter_append, List.filter_append, hasked, hasked, h,
    List.filter_filter, List.filter_filter]
  congr 1
  refine List.filter_congr fun status _ => ?_
  cases hstatus : keeps status.id with
  | false => rfl
  | true => simp [hmem status.id hstatus]

theorem find?_updateAll_of_apart {id : String}
    (hsettles : ∀ change ∈ changes, Settles change.2)
    (hapart : ∀ change ∈ changes, id ≠ change.1) (board : StatusBoard) :
    (board.updateAll changes).find? id = board.find? id := by
  induction changes generalizing board with
  | nil => rfl
  | cons change changes ih =>
    obtain ⟨hchange, hrest⟩ := List.forall_mem_cons.1 hsettles
    obtain ⟨hne, hothers⟩ := List.forall_mem_cons.1 hapart
    rw [updateAll, List.foldl_cons, ← updateAll, ih hrest hothers,
      find?_update_other board hne hchange]

/-- The same change of some sources, each once, changes the status of each of them. -/
theorem find?_updateAll_of_mem {ids : List String} {id : String} (hids : ids.Nodup) (hid : id ∈ ids)
    {change : Status → Status} (hchange : Settles change) (board : StatusBoard) :
    (board.updateAll (ids.map fun id => (id, change))).find? id =
      some (change (board.status id)) := by
  induction ids generalizing board with
  | nil => cases hid
  | cons first ids ih =>
    obtain ⟨hfirst, hrest⟩ := List.nodup_cons.1 hids
    rw [List.map_cons, updateAll, List.foldl_cons, ← updateAll]
    by_cases heq : id = first
    · subst heq
      have hsettles : ∀ other ∈ ids.map fun id => (id, change), Settles other.2 :=
        List.forall_mem_map.2 fun _ _ => hchange
      have hapart : ∀ other ∈ ids.map fun id => (id, change), id ≠ other.1 :=
        List.forall_mem_map.2 fun another hanother heq => hfirst (heq ▸ hanother)
      rw [find?_updateAll_of_apart hsettles hapart, find?_update_self board id hchange]
    · have hmem : id ∈ ids := (List.mem_cons.1 hid).resolve_left heq
      rw [ih hrest hmem, status_update_other board heq hchange]

end StatusBoard

open StatusBoard

/-! ## The changes of a reply -/

namespace Arrival

/-- The changes that a reply comes to. -/
def changes (arrival : Arrival) : List StatusBoard.Change :=
  match arrival.reply with
  | .ok answer =>
    answer.reports.map (fun report => (report.id, reported report)) ++
      arrival.request.sources.map fun id => (id, completed)
  | .error _ => arrival.request.sources.map fun id => (id, failed)

/-- Whether a source is one that the request of a reply does not list. -/
def leavesOut (arrival : Arrival) (id : String) : Bool := !arrival.request.sources.contains id

/-- The reports of a reply on sources that its request does not list. -/
def foreignReports (arrival : Arrival) : List Answer.Report :=
  match arrival.reply with
  | .ok answer => answer.reports.filter fun report => arrival.leavesOut report.id
  | .error _ => []

/-- A reply that reports on the sources of its request only. -/
def Confined (arrival : Arrival) : Prop :=
  ∀ answer, arrival.reply = .ok answer →
    ∀ report ∈ answer.reports, report.id ∈ arrival.request.sources

variable {arrival : Arrival}

theorem leavesOut_eq_true_iff {id : String} :
    arrival.leavesOut id = true ↔ id ∉ arrival.request.sources := by
  simp [leavesOut]

theorem confined_iff : arrival.Confined ↔ arrival.foreignReports = [] := by
  obtain ⟨request, failure | answer⟩ := arrival
  · exact ⟨fun _ => rfl, fun _ => nofun⟩
  · simp [Confined, foreignReports, leavesOut]

instance : Decidable arrival.Confined := decidable_of_iff _ confined_iff.symm

theorem settles_of_mem_changes {change : StatusBoard.Change} (h : change ∈ arrival.changes) :
    Settles change.2 := by
  obtain ⟨request, failure | answer⟩ := arrival
  · obtain ⟨id, -, rfl⟩ := List.mem_map.1 h
    exact settles_failed
  · obtain h | h := List.mem_append.1 h
    · obtain ⟨report, -, rfl⟩ := List.mem_map.1 h
      exact settles_reported report
    · obtain ⟨id, -, rfl⟩ := List.mem_map.1 h
      exact settles_completed

/-- A confined reply changes the statuses of its own sources only. -/
theorem Confined.mem_sources (h : arrival.Confined) {change : StatusBoard.Change}
    (hchange : change ∈ arrival.changes) : change.1 ∈ arrival.request.sources := by
  obtain ⟨request, failure | answer⟩ := arrival
  · obtain ⟨id, hid, rfl⟩ := List.mem_map.1 hchange
    exact hid
  · obtain hchange | hchange := List.mem_append.1 hchange
    · obtain ⟨report, hreport, rfl⟩ := List.mem_map.1 hchange
      exact h answer rfl report hreport
    · obtain ⟨id, hid, rfl⟩ := List.mem_map.1 hchange
      exact hid

end Arrival

theorem Session.boardAfter_eq (board : StatusBoard) (arrival : Arrival) :
    boardAfter board arrival = board.updateAll arrival.changes := by
  obtain ⟨request, failure | answer⟩ := arrival
  · exact fail_eq board request.sources
  · rw [Arrival.changes, updateAll_append, ← reportAll_eq, ← complete_eq]
    rfl

/-- Of the changes of a reply only reports can be on sources that its request does not
list. -/
theorem Arrival.filter_changes (arrival : Arrival) :
    (arrival.changes.filter fun change => arrival.leavesOut change.1) =
      arrival.foreignReports.map fun report => (report.id, reported report) := by
  have hlisted (change : Status → Status) :
      ((arrival.request.sources.map fun id => (id, change)).filter
        fun change => arrival.leavesOut change.1) = [] := by
    rw [List.filter_eq_nil_iff]
    intro entry hentry
    obtain ⟨id, hid, rfl⟩ := List.mem_map.1 hentry
    rw [leavesOut_eq_true_iff, not_not]
    exact hid
  obtain ⟨request, failure | answer⟩ := arrival
  · exact hlisted failed
  · rw [changes, List.filter_append, hlisted completed, List.append_nil, List.filter_map]
    rfl

namespace Session

/-- The changes that some replies come to. -/
def allChanges (arrivals : List Arrival) : List StatusBoard.Change :=
  arrivals.flatMap Arrival.changes

/-- The sources that the requests of some replies list. -/
def answeredSources (arrivals : List Arrival) : List String :=
  arrivals.flatMap fun arrival => arrival.request.sources

theorem settles_of_mem_allChanges {arrivals : List Arrival} :
    ∀ change ∈ allChanges arrivals, Settles change.2 := by
  intro change hchange
  obtain ⟨arrival, -, hmem⟩ := List.mem_flatMap.1 hchange
  exact Arrival.settles_of_mem_changes hmem

/-- Confined replies change the statuses of the sources only that their requests list. -/
theorem mem_answeredSources_of_mem_allChanges {arrivals : List Arrival}
    (hconfined : ∀ arrival ∈ arrivals, arrival.Confined) :
    ∀ change ∈ allChanges arrivals, change.1 ∈ answeredSources arrivals := by
  intro change hchange
  obtain ⟨arrival, harrival, hmem⟩ := List.mem_flatMap.1 hchange
  exact List.mem_flatMap.2 ⟨arrival, harrival, (hconfined arrival harrival).mem_sources hmem⟩

theorem foldl_boardAfter_eq (board : StatusBoard) (arrivals : List Arrival) :
    arrivals.foldl boardAfter board = board.updateAll (allChanges arrivals) := by
  induction arrivals generalizing board with
  | nil => rfl
  | cons arrival arrivals ih =>
    have hcons : allChanges (arrival :: arrivals) = arrival.changes ++ allChanges arrivals := rfl
    rw [List.foldl_cons, ih, hcons, updateAll_append, boardAfter_eq]

/-- What becomes of the sources that a request does not list when a reply to it is applied,
in any session whatever: their statuses take in the reports of the reply on them, of which
there are none in a failure, and nothing else changes among them. -/
theorem unlisted_sources_follow_reports (session : Session) (arrival : Arrival) :
    (session.apply arrival).statuses.keeping arrival.leavesOut =
      ((session.statuses.keeping arrival.leavesOut).reportAll arrival.foreignReports).1 := by
  have hsettles : ∀ change ∈ arrival.changes, Settles change.2 :=
    fun _ => Arrival.settles_of_mem_changes
  rw [statuses_apply, boardAfter_eq, keeping_updateAll hsettles, Arrival.filter_changes,
    ← reportAll_eq]

/-- A session of a query for the local catalog and two sites. -/
def ofThreeSources : Session :=
  let registry := ((Registry.create "home" false).register ⟨"first", .federatedSite, true⟩).register
    ⟨"second", .federatedSite, true⟩
  .create (.create "query" "Search") ⟨registry, 20, 1000, none⟩

end Session

namespace Traffic

/-- A search of the local catalog and two sites, after the first site has answered with a
report on the second one, which has not. -/
def otherSiteReported : Traffic :=
  (Traffic.create .ofThreeSources).run
    [.operate (.start {}),
      .answer 1 (.ok ⟨[], [⟨"second", some 7, some 0, none, none, []⟩]⟩)]

/-- A report on another site is taken for the answer of that site, which is still to come:
the board does not wait for it any longer and tells that it succeeded. -/
theorem foreign_report_settles_other_site :
    let after := otherSiteReported.act (.operate .poll)
    after.sent.map Request.sources = [["home"], ["first"], ["second"]] ∧
      after.applied = [1] ∧ after.answered = [1] ∧
      otherSiteReported.session.statuses.find? "second" = some (.asked "second") ∧
      after.session.statuses.find? "second" =
        some ⟨"second", false, some true, some 7, 0, none, []⟩ := by
  decide +kernel

end Traffic

end CatalogSearch
