import CatalogSearch.Proofs.View.Changes
import Mathlib.Data.List.Perm.Subperm

/-!
# Merging in between

Results may be merged as they arrive or all at once in the end.  Both ways hold the same
record of every id; and as no two results arrive as one, there is one way only to put
records in order.
-/

namespace CatalogSearch.View

namespace Change

/-- Whether results that arrived stay in the view or in its queue. -/
def retains : Change → Bool
  | .emptyQueue | .restart _ _ => false
  | _ => true

/-- Whether results arrive. -/
def delivers : Change → Bool
  | .intake (.deliver _ _) => true
  | _ => false

end Change

variable {view other : View}

/-! ## Arrivals -/

/-- The arrivals of a view: those in its records, then those in its queue. -/
def numbers (view : View) : List Nat := (view.records ++ view.queue).map Result.arrival

/-- No two results of a view arrived as one, and none has yet to come. -/
structure Numbered (view : View) : Prop where
  nodup : view.numbers.Nodup
  lt : ∀ number ∈ view.numbers, number < view.arrivals

theorem map_arrival_arriving (asked : String) (arrival : Nat) (items : List Answer.Item) :
    (arriving asked arrival items).map Result.arrival =
      List.range' arrival (arriving asked arrival items).length := by
  induction items generalizing arrival with
  | nil => rfl
  | cons item items ih =>
    rw [arriving]
    split
    · exact ih arrival
    · rw [List.map_cons, List.length_cons, List.range'_succ, ih]

theorem map_arrival_absorb_sublist (records : List Result) (result : Result) :
    ((absorb records result).map Result.arrival).Sublist
      ((records ++ [result]).map Result.arrival) := by
  induction records with
  | nil => exact .refl _
  | cons record rest ih =>
    rw [absorb]
    split
    · -- The arrival of the record stays in its place, and that of the result is dropped.
      have hrest : (rest.map Result.arrival).Sublist ((rest ++ [result]).map Result.arrival) :=
        (List.sublist_append_left rest [result]).map _
      split <;> exact hrest.cons_cons _
    · exact ih.cons_cons _

theorem map_arrival_foldl_absorb_sublist (queue records : List Result) :
    ((queue.foldl absorb records).map Result.arrival).Sublist
      ((records ++ queue).map Result.arrival) := by
  induction queue generalizing records with
  | nil => exact (List.append_nil records).symm ▸ .refl _
  | cons result queue ih =>
    have hfirst := (map_arrival_absorb_sublist records result).append
      (.refl (queue.map Result.arrival))
    rw [← List.map_append, ← List.map_append, List.append_assoc] at hfirst
    exact (ih (absorb records result)).trans hfirst

/-- Arrivals that are dropped or put in another order leave the rest as good as they were. -/
theorem Numbered.of_subperm (h : view.Numbered) (hnumbers : other.numbers.Subperm view.numbers)
    (harrivals : other.arrivals = view.arrivals) : other.Numbered := by
  obtain ⟨numbers, hperm, hsublist⟩ := hnumbers
  refine ⟨hperm.nodup_iff.1 (h.nodup.sublist hsublist), fun number hnumber => ?_⟩
  rw [harrivals]
  exact h.lt number (hsublist.subset (hperm.mem_iff.2 hnumber))

theorem Numbered.merge (h : view.Numbered) : view.merge.Numbered := by
  refine h.of_subperm ?_ rfl
  have hperm := (arrange_perm view.sorts (view.queue.foldl absorb view.records)).map Result.arrival
  rw [numbers, queue_merge, List.append_nil]
  exact hperm.subperm.trans (map_arrival_foldl_absorb_sublist view.queue view.records).subperm

theorem Numbered.setSorts (h : view.Numbered) (sorts : List SortKey) :
    (view.setSorts sorts).Numbered :=
  h.of_subperm (((arrange_perm sorts view.records).append_right _).map _).subperm rfl

theorem Numbered.enqueue (h : view.Numbered) (asked : String) (items : List Answer.Item) :
    (view.enqueue asked items).Numbered := by
  have hnumbers : (view.enqueue asked items).numbers = view.numbers ++
      List.range' view.arrivals (arriving asked view.arrivals items).length := by
    rw [numbers, numbers, View.enqueue, ← List.append_assoc, List.map_append, map_arrival_arriving]
  constructor
  · rw [hnumbers, List.nodup_append]
    refine ⟨h.nodup, List.nodup_range', fun earlier hearlier later hlater => ?_⟩
    have hlt := h.lt earlier hearlier
    have hle := (List.mem_range'_1.1 hlater).1
    omega
  · intro number hnumber
    rw [hnumbers, List.mem_append] at hnumber
    change number < view.arrivals + (arriving asked view.arrivals items).length
    obtain hearlier | hlater := hnumber
    · exact Nat.lt_add_right _ (h.lt number hearlier)
    · exact (List.mem_range'_1.1 hlater).2

/-! ## Two views that hold the same -/

/-- Two views that hold the same record of every id, wherever it lies, and expect the same
arrivals. -/
structure Alike (view other : View) : Prop where
  held : ∀ id, view.held id = other.held id
  arrivals : view.arrivals = other.arrivals

theorem Alike.enqueue (h : Alike view other) (asked : String) (items : List Answer.Item) :
    Alike (view.enqueue asked items) (other.enqueue asked items) := by
  constructor
  · intro id
    rw [held_enqueue, held_enqueue, h.held, h.arrivals]
  · rw [View.enqueue, View.enqueue, h.arrivals]

theorem Alike.merge (h : Alike view other) (hdistinct : view.Distinct) :
    Alike view.merge other :=
  ⟨fun id => (find?_records_merge hdistinct id).trans (h.held id), h.arrivals⟩

theorem Alike.setSorts (h : Alike view other) (hdistinct : view.Distinct)
    (sorts : List SortKey) : Alike (view.setSorts sorts) other :=
  ⟨fun id => (held_setSorts hdistinct sorts id).trans (h.held id), h.arrivals⟩

theorem Alike.symm (h : Alike view other) : Alike other view :=
  ⟨fun id => (h.held id).symm, h.arrivals.symm⟩

/-- No two records of a view are of one id, and no two of its results arrived as one. -/
structure Sound (view : View) : Prop where
  distinct : view.Distinct
  numbered : view.Numbered

theorem Sound.setSorts (h : view.Sound) (sorts : List SortKey) : (view.setSorts sorts).Sound :=
  ⟨h.distinct.setSorts sorts, h.numbered.setSorts sorts⟩

/-- As long as nothing is dropped, ids and arrivals stay distinct. -/
theorem Sound.change (h : view.Sound) {change : Change} (hretains : change.retains = true) :
    (view.change change).Sound := by
  cases change with
  | intake intake =>
    refine ⟨h.distinct.take intake, ?_⟩
    cases intake with
    | deliver asked items => exact h.numbered.enqueue asked items
    | merge => exact h.numbered.merge
    | setSorts sorts => exact h.numbered.setSorts sorts
  | sort => exact h.setSorts view.sorts
  | setAutoMerge => exact ⟨h.distinct, h.numbered.nodup, h.numbered.lt⟩
  | emptyQueue | restart => cases hretains

/-- Only what arrives makes a difference to what a view holds. -/
theorem Alike.change (h : Alike view other) (hsound : view.Sound) {change : Change}
    (hretains : change.retains = true) :
    Alike (view.change change) (if change.delivers then other.change change else other) := by
  cases change with
  | intake intake =>
    cases intake with
    | deliver asked items => exact h.enqueue asked items
    | merge => exact h.merge hsound.distinct
    | setSorts sorts => exact h.setSorts hsound.distinct sorts
  | sort => exact h.setSorts hsound.distinct view.sorts
  | setAutoMerge => exact ⟨h.held, h.arrivals⟩
  | emptyQueue | restart => cases hretains

theorem Sound.changeAll (h : view.Sound) {changes : List Change}
    (hretains : ∀ change ∈ changes, change.retains = true) : (view.changeAll changes).Sound := by
  induction changes generalizing view with
  | nil => exact h
  | cons change changes ih =>
    obtain ⟨hfirst, hrest⟩ := List.forall_mem_cons.1 hretains
    exact ih (h.change hfirst) hrest

theorem Alike.changeAll (h : Alike view other) (hsound : view.Sound) {changes : List Change}
    (hretains : ∀ change ∈ changes, change.retains = true) :
    Alike (view.changeAll changes) (other.changeAll (changes.filter Change.delivers)) := by
  induction changes generalizing view other with
  | nil => exact h
  | cons change changes ih =>
    obtain ⟨hfirst, hrest⟩ := List.forall_mem_cons.1 hretains
    have hnext := ih (h.change hsound hfirst) (hsound.change hfirst) hrest
    rw [List.filter_cons]
    split at hnext <;> rename_i hdelivers
    · rwa [if_pos hdelivers]
    · rwa [if_neg hdelivers]

/-- Once merged, views that hold the same have the same records. -/
theorem Alike.perm_merge (h : Alike view other) (hview : view.Distinct)
    (hother : other.Distinct) : view.merge.records.Perm other.merge.records := by
  refine (List.perm_ext_iff_of_nodup hview.merge.of_map hother.merge.of_map).2 fun record => ?_
  have hmem : ∀ {view : View}, view.Distinct →
      (record ∈ view.merge.records ↔ view.held record.id = some record) := by
    intro view hdistinct
    rw [← find?_records_merge hdistinct]
    exact ⟨Roster.find?_of_mem Result.id hdistinct.merge,
      fun hfind => (Roster.mem_of_find? Result.id hfind).1⟩
  rw [hmem hview, hmem hother, h.held]

/-- Under the same keys there is one order only for them. -/
theorem Alike.records_merge (h : Alike view other) (hview : view.Sound) (hother : other.Distinct)
    (hsorts : view.sorts = other.sorts) : view.merge.records = other.merge.records := by
  have hperm := h.perm_merge hview.distinct hother
  have hsorted : other.merge.Sorted := sorted_sort _
  refine hperm.eq_of_pairwise (fun left right hleft hright hle hge => ?_) (sorted_sort _)
    (hsorts ▸ hsorted : other.merge.records.Pairwise fun left right =>
      (left.order right view.sorts).isLE)
  -- Two records that are not before each other arrived as one, so they are one.
  have hlevel := (Result.order_eq_iff view.sorts).1 (Result.order_eq_of_isLE hle hge)
  have hnodup : (view.merge.records.map Result.arrival).Nodup := by
    simpa [numbers] using hview.numbered.merge.nodup
  exact List.inj_on_of_nodup_map hnodup hleft (hperm.mem_iff.2 hright) hlevel.2

/-- To merge, sort and change keys while batches arrive, in any order, and to merge in the
end gives the records that come of one merge after all batches, under the same keys. -/
theorem merging_in_between (hqueue : view.queue = []) (hdistinct : view.Distinct)
    (hnodup : (view.records.map Result.arrival).Nodup)
    (hlt : ∀ record ∈ view.records, record.arrival < view.arrivals)
    (changes : List Change) (hretains : ∀ change ∈ changes, change.retains = true)
    (sorts : List SortKey) :
    ((view.changeAll changes).setSorts sorts).merge.records =
      ((view.changeAll (changes.filter Change.delivers)).setSorts sorts).merge.records := by
  have hnumbers : view.numbers = view.records.map Result.arrival := by
    rw [numbers, hqueue, List.append_nil]
  have hsound : view.Sound := by
    refine ⟨hdistinct, hnumbers ▸ hnodup, fun number hnumber => ?_⟩
    rw [hnumbers] at hnumber
    obtain ⟨record, hrecord, rfl⟩ := List.mem_map.1 hnumber
    exact hlt record hrecord
  have hdeliveries : ∀ change ∈ changes.filter Change.delivers, change.retains = true :=
    fun change hchange => hretains change (List.mem_filter.1 hchange).1
  have hleft := hsound.changeAll hretains
  have hright := hsound.changeAll hdeliveries
  have halike : Alike (view.changeAll changes)
      (view.changeAll (changes.filter Change.delivers)) :=
    Alike.changeAll ⟨fun _ => rfl, rfl⟩ hsound hretains
  have hsorted := (halike.setSorts hleft.distinct sorts).symm.setSorts hright.distinct sorts
  exact hsorted.symm.records_merge (hleft.setSorts sorts) (hright.distinct.setSorts sorts) rfl

/-- A merge and a change of keys between two batches, the first of which replaces a copy. -/
theorem merging_between_two_batches :
    let view : View :=
      ⟨[⟨(titled "a" "stale" none).metacard, "cache", none, none, 0⟩], [], [], true, 1⟩
    let changes : List Change :=
      [.intake (.deliver "site" [titled "b" "other" none, titled "a" "fresh" none]),
        .intake .merge, .intake (.setSorts [⟨"title", .descending⟩]),
        .intake (.deliver "home" [titled "c" "late" none]), .sort]
    let sorts : List SortKey := [⟨"title", .ascending⟩]
    view.queue = [] ∧ view.Distinct ∧ (view.records.map Result.arrival).Nodup ∧
      (∀ record ∈ view.records, record.arrival < view.arrivals) ∧
      (∀ change ∈ changes, change.retains = true) ∧
      ((view.changeAll changes).setSorts sorts).merge.records =
        ((view.changeAll (changes.filter Change.delivers)).setSorts sorts).merge.records := by
  intro view changes sorts
  have hdistinct : view.Distinct := List.nodup_singleton _
  have hnodup : (view.records.map Result.arrival).Nodup := List.nodup_singleton _
  have hlt : ∀ record ∈ view.records, record.arrival < view.arrivals := by
    intro record hrecord
    rw [List.mem_singleton.1 hrecord]
    decide
  have hretains : ∀ change ∈ changes, change.retains = true := by
    simp [changes, Change.retains]
  exact ⟨rfl, hdistinct, hnodup, hlt, hretains,
    merging_in_between rfl hdistinct hnodup hlt changes hretains sorts⟩

end CatalogSearch.View
