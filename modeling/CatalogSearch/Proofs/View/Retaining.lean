import CatalogSearch.Proofs.View.Changes

/-!
# What a view retains

Once a record is in view it stays there, whatever comes: as it is, or, if it is filed under
the cache, until a result of the same id comes that is not.  That one takes its place, and
stays in turn.
-/

namespace CatalogSearch

namespace Result

/-- What may have become of a record while some results came. -/
def Becomes (delivered : Result → Prop) (record shown : Result) : Prop :=
  shown = record ∨
    record.isCached = true ∧
      ∃ result, delivered result ∧ result.isCached = false ∧ result.id = record.id ∧
        shown = { result with arrival := record.arrival }

variable {delivered : Result → Prop} {record shown : Result}

theorem Becomes.id_eq (h : Becomes delivered record shown) : shown.id = record.id := by
  obtain rfl | ⟨-, result, -, -, hid, rfl⟩ := h
  · rfl
  · exact hid

theorem Becomes.giveWay (h : Becomes delivered record shown) {result : Result}
    (hresult : result.isCached = false → delivered result) :
    Becomes delivered record (shown.giveWay result) := by
  obtain rfl | ⟨hcached, other, hother, hreal, hid, rfl⟩ := h
  · rw [Result.giveWay]
    split
    · rename_i hgives
      obtain ⟨hid, hcached, hreal⟩ := hgives
      exact .inr ⟨hcached, result, hresult hreal, hreal, hid.symm, rfl⟩
    · exact .inl rfl
  · have hshown : ({ other with arrival := record.arrival } : Result).isCached = false := hreal
    rw [giveWay_of_real hshown]
    exact .inr ⟨hcached, other, hother, hreal, hid, rfl⟩

theorem Becomes.standing (h : Becomes delivered record shown) {results : List Result}
    (hresults : ∀ result ∈ results, result.isCached = false → delivered result) :
    ∃ after, standing (some shown) results = some after ∧ Becomes delivered record after := by
  induction results generalizing shown with
  | nil => exact ⟨shown, rfl, h⟩
  | cons result rest ih =>
    obtain ⟨hresult, hrest⟩ := List.forall_mem_cons.1 hresults
    exact ih (h.giveWay hresult) hrest

end Result

namespace View

/-- A view that keeps some records while some results are delivered. -/
structure Retains (delivered : Result → Prop) (records : List Result) (view : View) : Prop where
  distinct : view.Distinct
  shown : ∀ record ∈ records, ∃ shown,
    Roster.find? Result.id record.id view.records = some shown ∧
      Result.Becomes delivered record shown
  queued : ∀ result ∈ view.queue, result.isCached = false → delivered result

namespace Retains

variable {delivered : Result → Prop} {records : List Result} {view : View}

/-- At first the records in view are those that are kept. -/
theorem of_distinct (h : view.Distinct) (hqueue : view.queue = []) :
    Retains delivered view.records view where
  distinct := h
  shown record hrecord := ⟨record, Roster.find?_of_mem Result.id h hrecord, .inl rfl⟩
  queued := by
    rw [hqueue]
    exact List.forall_mem_nil _

/-- Records that are moved about are found as before. -/
theorem of_perm (h : Retains delivered records view) {after : View}
    (hperm : after.records.Perm view.records) (hqueue : after.queue ⊆ view.queue) :
    Retains delivered records after := by
  have hdistinct : after.Distinct := (hperm.map Result.id).nodup_iff.2 h.distinct
  refine ⟨hdistinct, fun record hrecord => ?_, fun result hresult => h.queued result (hqueue hresult)⟩
  rw [Roster.find?_perm hperm hdistinct]
  exact h.shown record hrecord

theorem merge (h : Retains delivered records view) : Retains delivered records view.merge where
  distinct := h.distinct.merge
  shown := by
    intro record hrecord
    obtain ⟨shown, hfind, hbecomes⟩ := h.shown record hrecord
    rw [find?_records_merge h.distinct, held, find?_foldl_absorb, hfind]
    exact hbecomes.standing fun result hresult => h.queued result (List.mem_of_mem_filter hresult)
  queued := List.forall_mem_nil _

theorem enqueue (h : Retains delivered records view) {asked : String} {items : List Answer.Item}
    (hitems : ∀ result ∈ arriving asked view.arrivals items,
      result.isCached = false → delivered result) :
    Retains delivered records (view.enqueue asked items) :=
  ⟨h.distinct, h.shown, List.forall_mem_append.2 ⟨h.queued, hitems⟩⟩

theorem setSorts (h : Retains delivered records view) (sorts : List SortKey) :
    Retains delivered records (view.setSorts sorts) :=
  h.of_perm (arrange_perm _ _) (List.Subset.refl _)

theorem setAutoMerge (h : Retains delivered records view) (autoMerge : Bool) :
    Retains delivered records (view.setAutoMerge autoMerge) :=
  h.of_perm (.refl _) (List.Subset.refl _)

theorem emptyQueue (h : Retains delivered records view) :
    Retains delivered records view.emptyQueue :=
  h.of_perm (.refl _) (List.nil_subset _)

end Retains

end View

end CatalogSearch
