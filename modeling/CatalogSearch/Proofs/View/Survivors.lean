import CatalogSearch.Proofs.View.Changes

/-!
# What survives merging

Merging shows one record of every id that was in view or queued.  Which one that is can be
said without going through the queue: a record from a real source before a cached copy, and
of either kind the first one.  Whichever it is, it stands where the first of its id arrived.
-/

namespace CatalogSearch

namespace Result

/-- The result of an id that is shown: the record in view if it is no cached copy, else the
first queued result that is none, else the record in view, else the first queued result. -/
def preferred? (held : Option Result) (queued : List Result) : Option Result :=
  (held.filter fun record => !record.isCached).or
    ((queued.find? fun result => !result.isCached).or (held.or queued.head?))

/-- What is left of the results of one id: the preferred one, with the arrival of the record
in view or, if there was none, of the first queued result. -/
def survivor? (held : Option Result) (queued : List Result) : Option Result :=
  (held.or queued.head?).bind fun first =>
    (preferred? held queued).map fun result => { result with arrival := first.arrival }

section

variable {record result : Result} (queued : List Result)

theorem survivor?_none_cons :
    survivor? none (result :: queued) = survivor? (some result) queued := by
  cases h : result.isCached <;> simp [survivor?, preferred?, Option.filter_some, h]

theorem survivor?_of_real (h : record.isCached = false) :
    survivor? (some record) queued = some record := by
  simp [survivor?, preferred?, Option.filter_some, h]

/-- A cached copy never is a survivor behind a record in view. -/
theorem survivor?_cons_of_cached (h : result.isCached = true) :
    survivor? (some record) (result :: queued) = survivor? (some record) queued := by
  simp [survivor?, preferred?, h]

theorem survivor?_cons_of_real (h : record.isCached = true) (hresult : result.isCached = false) :
    survivor? (some record) (result :: queued) =
      some { result with arrival := record.arrival } := by
  simp [survivor?, preferred?, Option.filter_some, h, hresult]

end

/-- Giving way one after the other leaves the survivor. -/
theorem standing_eq_survivor? {id : String} {held : Option Result} {queued : List Result}
    (hheld : ∀ record, held = some record → record.id = id)
    (hqueued : ∀ result ∈ queued, result.id = id) :
    standing held queued = survivor? held queued := by
  induction queued generalizing held with
  | nil =>
    cases held with
    | none => rfl
    | some record =>
      cases hcached : record.isCached <;>
        simp [standing, survivor?, preferred?, Option.filter_some, hcached]
  | cons result rest ih =>
    obtain ⟨hresult, hrest⟩ := List.forall_mem_cons.1 hqueued
    rw [standing, List.foldl_cons, ← standing]
    cases held with
    | none =>
      rw [Option.getD_none, giveWay_self, survivor?_none_cons]
      exact ih (fun record hrecord => Option.some.inj hrecord ▸ hresult) hrest
    | some record =>
      rw [Option.getD_some]
      cases hcached : record.isCached with
      | false => rw [giveWay_of_real hcached, standing_of_real hcached, survivor?_of_real _ hcached]
      | true =>
        cases hreal : result.isCached with
        | true =>
          rw [giveWay_cached _ hreal, survivor?_cons_of_cached _ hreal]
          exact ih hheld hrest
        | false =>
          have hsame : record.id = result.id := (hheld record rfl).trans hresult.symm
          have hway : record.giveWay result = { result with arrival := record.arrival } :=
            if_pos ⟨hsame, hcached, hreal⟩
          have hstays : ({ result with arrival := record.arrival } : Result).isCached = false :=
            hreal
          rw [hway, standing_of_real hstays, survivor?_cons_of_real _ hcached hreal]

end Result

namespace View

open Result

variable {view : View}

/-- Merging shows what survives of an id. -/
theorem find?_merge_eq_survivor? (h : view.Distinct) (id : String) :
    Roster.find? Result.id id view.merge.records =
      survivor? (Roster.find? Result.id id view.records)
        (view.queue.filter fun result => result.id == id) := by
  rw [find?_records_merge h, held, find?_foldl_absorb]
  have hheld (record : Result) (hrecord : Roster.find? Result.id id view.records = some record) :
      record.id = id := (Roster.mem_of_find? Result.id hrecord).2
  exact standing_eq_survivor? hheld fun result hresult => eq_of_beq (List.mem_filter.1 hresult).2

theorem mem_ids_merge_iff (view : View) (id : String) :
    id ∈ view.merge.records.map Result.id ↔
      id ∈ view.records.map Result.id ∨ id ∈ view.queue.map Result.id := by
  have hany (records : List Result) :
      (records.any fun record => record.id == id) = true ↔ id ∈ records.map Result.id := by
    simp [List.any_eq_true]
  have hmerge := contains_merge view id
  rw [held, find?_foldl_absorb, isSome_standing, Roster.isSome_find?, contains] at hmerge
  rw [← hany, hmerge, Bool.or_eq_true, hany]
  refine or_congr Iff.rfl ?_
  simp

/-- A view that is started anew holds no id twice if its seeds do not. -/
theorem distinct_restart (view : View) (sorts : List SortKey) {seeds : List Result}
    (h : (seeds.map Result.id).Nodup) : (view.restart sorts seeds).Distinct :=
  ((arrange_perm sorts seeds).map Result.id).nodup_iff.2 h

theorem Distinct.sort (h : view.Distinct) : view.sort.Distinct :=
  ((arrange_perm _ _).map Result.id).nodup_iff.2 h

theorem Distinct.change (h : view.Distinct) {change : Change}
    (hseeds : ∀ sorts seeds, change = .restart sorts seeds → (seeds.map Result.id).Nodup) :
    (view.change change).Distinct := by
  cases change with
  | intake intake => exact h.take intake
  | sort => exact h.sort
  | setAutoMerge | emptyQueue => exact h
  | restart sorts seeds => exact distinct_restart view sorts (hseeds sorts seeds rfl)

theorem Distinct.changeAll (h : view.Distinct) {changes : List Change}
    (hseeds : ∀ sorts seeds, .restart sorts seeds ∈ changes → (seeds.map Result.id).Nodup) :
    (view.changeAll changes).Distinct := by
  induction changes generalizing view with
  | nil => exact h
  | cons change rest ih =>
    refine ih (h.change ?_) fun sorts seeds hmem => ?_
    · rintro sorts seeds rfl
      exact hseeds sorts seeds List.mem_cons_self
    · exact hseeds sorts seeds (List.mem_cons_of_mem _ hmem)

/-- Merging leaves nothing queued and one record of each id that was in view or queued: the
one in view unless it is a cached copy, else the first queued result of the id that is none,
else the one in view, else the first queued one, with the arrival of the record in view or,
without one, of the first queued result.  So whatever is done to a view, it never holds an id
twice, as long as it is started anew from seeds that do not. -/
theorem merging_keeps_one_of_each_id {view : View} (h : view.Distinct) :
    (view.merge.queue = [] ∧ view.merge.Distinct ∧
      (∀ id, id ∈ view.merge.records.map Result.id ↔
        id ∈ view.records.map Result.id ∨ id ∈ view.queue.map Result.id) ∧
      ∀ id, (view.merge.records.filter fun record => record.id == id) =
        (survivor? (Roster.find? Result.id id view.records)
          (view.queue.filter fun result => result.id == id)).toList) ∧
    ∀ changes : List Change,
      (∀ sorts seeds, .restart sorts seeds ∈ changes → (seeds.map Result.id).Nodup) →
        (view.changeAll changes).Distinct := by
  refine ⟨⟨rfl, h.merge, mem_ids_merge_iff view, fun id => ?_⟩, fun changes => h.changeAll⟩
  rw [Roster.filter_eq_toList_find? Result.id h.merge, find?_merge_eq_survivor? h]

/-- A view of a cached and a real record, with later results queued behind them. -/
def crowded : View :=
  let result (id title source : String) (arrival : Nat) : Result :=
    ⟨(titled id title none).metacard, source, none, none, arrival⟩
  { View.empty [SortKey.lastModified] with
    records := [result "a" "stale" "cache" 0, result "b" "kept" "site" 1]
    queue := [result "a" "older" "cache" 2, result "c" "copy" "cache" 3, result "b" "late" "home" 4,
      result "a" "fresh" "site" 5, result "a" "again" "home" 6, result "c" "first" "home" 7,
      result "d" "alone" "cache" 8]
    arrivals := 9 }

theorem crowded_merges :
    crowded.Distinct ∧
      (crowded.merge.records.filter fun record => record.id == "a").map
          (fun record => (record.metacard.property? "title", record.source, record.arrival)) =
        [(some (.string "fresh"), "site", 0)] ∧
      (crowded.merge.records.filter fun record => record.id == "c").map
          (fun record => (record.metacard.property? "title", record.source, record.arrival)) =
        [(some (.string "first"), "home", 3)] ∧
      (crowded.changeAll [.intake .merge, .restart [] [], .emptyQueue]).Distinct := by
  have hdistinct : crowded.Distinct := by
    unfold Distinct
    decide +kernel
  obtain ⟨⟨-, -, -, hfilter⟩, hchanges⟩ := merging_keeps_one_of_each_id hdistinct
  refine ⟨hdistinct, ?_, ?_, hchanges _ ?_⟩
  · rw [hfilter]
    rfl
  · rw [hfilter]
    rfl
  · intro sorts seeds hmem
    simp only [List.mem_cons, reduceCtorEq, Change.restart.injEq, List.not_mem_nil, or_false,
      false_or] at hmem
    rw [hmem.2]
    exact List.nodup_nil

end View

end CatalogSearch
