import CatalogSearch.View.Basic

/-!
# The order of results

Results are compared key by key and then by arrival.  Numbers, texts and missing values are
in one line, whichever way a key turns it, so that the comparison is a total preorder of all
results.  Two of them are level just if they agree on every key and arrived as one.
-/

namespace CatalogSearch

open Std

namespace Double

instance : TransCmp order := inferInstanceAs (TransCmp (compareOn rank))

instance : LawfulEqCmp order where
  eq_of_compare h := rank_injective (Std.compare_eq_iff_eq.1 h)

end Double

namespace SortValue

instance : TransCmp order where
  eq_swap {left right} := by
    cases left <;> cases right
    · exact @OrientedCmp.eq_swap _ Double.order _ _ _
    · rfl
    · rfl
    · exact @OrientedCmp.eq_swap String compare _ _ _
  isLE_trans {left middle right} hleft hright := by
    cases left <;> cases middle <;> cases right
    case number.number.number => exact @TransCmp.isLE_trans _ Double.order _ _ _ _ hleft hright
    case text.text.text => exact @TransCmp.isLE_trans String compare _ _ _ _ hleft hright
    -- A text is not before a number, and every number is before a text.
    all_goals
      first
      | rfl
      | exact absurd hleft Bool.false_ne_true
      | exact absurd hright Bool.false_ne_true

instance : LawfulEqCmp order where
  compare_self {value} := by
    cases value
    · exact @ReflCmp.compare_self _ Double.order _ _
    · exact @ReflCmp.compare_self String compare _ _
  eq_of_compare {left right} h := by
    cases left <;> cases right
    · exact congrArg number (@LawfulEqCmp.eq_of_compare _ Double.order _ _ _ h)
    · cases h
    · cases h
    · exact congrArg text (@LawfulEqCmp.eq_of_compare String compare _ _ _ h)

variable {direction : Direction}

instance : TransCmp (orderMissingLast direction) where
  eq_swap {left right} := by
    cases left <;> cases right <;> try rfl
    cases direction <;> exact @OrientedCmp.eq_swap _ order _ _ _
  isLE_trans {left middle right} hleft hright := by
    cases left <;> cases middle <;> cases right
    case some.some.some =>
      cases direction
      · exact @TransCmp.isLE_trans _ order _ _ _ _ hleft hright
      · exact @TransCmp.isLE_trans _ (fun left right => order right left) _ _ _ _ hleft hright
    -- A missing value is not before another, whatever the direction is.
    all_goals
      first
      | rfl
      | exact absurd hleft Bool.false_ne_true
      | exact absurd hright Bool.false_ne_true

instance : LawfulEqCmp (orderMissingLast direction) where
  compare_self {value} := by
    cases value
    · rfl
    · cases direction <;> exact @ReflCmp.compare_self _ order _ _
  eq_of_compare {left right} h := by
    cases left <;> cases right
    · rfl
    · cases h
    · cases h
    · cases direction
      · exact congrArg some (@LawfulEqCmp.eq_of_compare _ order _ _ _ h)
      · exact congrArg some (@LawfulEqCmp.eq_of_compare _ order _ _ _ h).symm

end SortValue

namespace Result

/-- The order of results under one key alone. -/
def orderBy (key : SortKey) (left right : Result) : Ordering :=
  SortValue.orderMissingLast key.direction (left.sortValue? key.name) (right.sortValue? key.name)

instance (key : SortKey) : TransCmp (orderBy key) where
  eq_swap {_ _} := @OrientedCmp.eq_swap _ (SortValue.orderMissingLast key.direction) _ _ _
  isLE_trans {_ _ _} :=
    @TransCmp.isLE_trans _ (SortValue.orderMissingLast key.direction) _ _ _ _

theorem orderBy_eq_iff {key : SortKey} {left right : Result} :
    orderBy key left right = .eq ↔ left.sortValue? key.name = right.sortValue? key.name :=
  @LawfulEqCmp.compare_eq_iff_eq _ (SortValue.orderMissingLast key.direction) _ _ _

/-- The order under some keys is that under the first, refined by that under the others. -/
theorem order_cons (key : SortKey) (keys : List SortKey) :
    (fun left right : Result => left.order right (key :: keys)) =
      compareLex (orderBy key) fun left right => left.order right keys := rfl

/-- Whatever the keys are, the comparison of results is a total preorder. -/
instance transCmp_order (keys : List SortKey) :
    TransCmp fun left right : Result => left.order right keys := by
  induction keys with
  | nil => exact inferInstanceAs (TransCmp (compareOn arrival))
  | cons key keys ih =>
    rw [order_cons]
    infer_instance

theorem order_swap (left right : Result) (keys : List SortKey) :
    left.order right keys = (right.order left keys).swap :=
  (transCmp_order keys).eq_swap

theorem isLE_order_trans {left middle right : Result} {keys : List SortKey}
    (hleft : (left.order middle keys).isLE) (hright : (middle.order right keys).isLE) :
    (left.order right keys).isLE :=
  (transCmp_order keys).isLE_trans hleft hright

theorem isLE_order_total (left right : Result) (keys : List SortKey) :
    (left.order right keys).isLE ∨ (right.order left keys).isLE := by
  rw [order_swap right left]
  cases left.order right keys <;> decide

theorem order_eq_of_isLE {left right : Result} {keys : List SortKey}
    (hle : (left.order right keys).isLE) (hge : (right.order left keys).isLE) :
    left.order right keys = .eq := by
  rw [order_swap right left] at hge
  revert hle hge
  cases left.order right keys <;> decide

/-- Only results that agree on every key and on their arrival are level. -/
theorem order_eq_iff {left right : Result} (keys : List SortKey) :
    left.order right keys = .eq ↔
      (∀ key ∈ keys, left.sortValue? key.name = right.sortValue? key.name) ∧
        left.arrival = right.arrival := by
  induction keys with
  | nil =>
    rw [order, Std.compare_eq_iff_eq]
    simp
  | cons key keys ih =>
    have hcons : left.order right (key :: keys) =
        (orderBy key left right).then (left.order right keys) := rfl
    rw [hcons, Ordering.then_eq_eq, orderBy_eq_iff, ih, List.forall_mem_cons, and_assoc]

end Result

end CatalogSearch
