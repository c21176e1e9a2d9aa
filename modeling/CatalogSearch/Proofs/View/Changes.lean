import CatalogSearch.Proofs.View.Merging
import CatalogSearch.Proofs.View.Ordering

/-!
# Changes of a view

Whatever is done to a view, its records stay in the order of its sort keys: what adds to
them or changes the keys sorts them anew, and nothing else touches either.
-/

namespace CatalogSearch.View

/-- Everything that can be done to a view. -/
inductive Change
  /-- What may also come in the course of a round. -/
  | intake (intake : Intake)
  | sort
  | setAutoMerge (autoMerge : Bool)
  | emptyQueue
  | restart (sorts : List SortKey) (seeds : List Result)

def change (view : View) : Change → View
  | .intake intake => view.take intake
  | .sort => view.sort
  | .setAutoMerge autoMerge => view.setAutoMerge autoMerge
  | .emptyQueue => view.emptyQueue
  | .restart sorts seeds => view.restart sorts seeds

def changeAll (view : View) (changes : List Change) : View := changes.foldl change view

/-- The records are in the order of the view's keys. -/
def Sorted (view : View) : Prop :=
  view.records.Pairwise fun left right => (left.order right view.sorts).isLE

variable {view : View}

theorem pairwise_arrange (sorts : List SortKey) (records : List Result) :
    (arrange sorts records).Pairwise fun left right => (left.order right sorts).isLE := by
  refine List.pairwise_mergeSort (fun first second third => ?_) (fun first second => ?_) records
  · exact Result.isLE_order_trans
  · rw [Bool.or_eq_true]
    exact Result.isLE_order_total first second sorts

theorem sorted_sort (view : View) : view.sort.Sorted := pairwise_arrange _ _

/-- Sorting what is in order changes nothing. -/
theorem Sorted.sort_eq (h : view.Sorted) : view.sort = view :=
  congrArg (fun records => { view with records }) (List.mergeSort_of_pairwise h)

theorem Sorted.take (h : view.Sorted) (intake : Intake) : (view.take intake).Sorted := by
  cases intake with
  | deliver => exact h
  | merge | setSorts => exact sorted_sort _

theorem Sorted.change (h : view.Sorted) (change : Change) : (view.change change).Sorted := by
  cases change with
  | intake intake => exact h.take intake
  | sort | restart => exact sorted_sort _
  | setAutoMerge | emptyQueue => exact h

theorem Sorted.changeAll (h : view.Sorted) (changes : List Change) :
    (view.changeAll changes).Sorted := by
  induction changes generalizing view with
  | nil => exact h
  | cons change changes ih => exact ih (h.change change)

end CatalogSearch.View
