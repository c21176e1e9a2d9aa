import CatalogSearch.Table

/-!
# Offsets

Where each group of sources goes on reading: the position, counted from one, of
its next record.  A group that is not in the table reads from its first record.
-/

namespace CatalogSearch

abbrev Offsets := Table UInt64

namespace Offsets

def empty : Offsets := []

def get (offsets : Offsets) (key : String) : UInt64 := (Table.find? key offsets).getD 1

/-- The table with an offset set, to one at least. -/
def set (offsets : Offsets) (key : String) (offset : UInt64) : Offsets :=
  Table.insert key (max offset 1) offsets

@[simp]
theorem get_empty (key : String) : get empty key = 1 := rfl

theorem get_set_self (offsets : Offsets) (key : String) (offset : UInt64) :
    (offsets.set key offset).get key = max offset 1 := by
  simp [get, set, Table.find?_insert_self]

theorem get_set_other (offsets : Offsets) {key other : String} (h : other ≠ key)
    (offset : UInt64) : (offsets.set key offset).get other = offsets.get other := by
  simp [get, set, Table.find?_insert_other h]

end Offsets

end CatalogSearch
