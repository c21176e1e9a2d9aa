/-!
# Tables keyed by text

A table is a list of entries in increasing order of their keys, each key at most
once.  Keys are ordered by code points, which is also the order of their UTF-8
bytes.  `find?_insert_self` and `find?_insert_other` say what a look-up sees after
an insertion.
-/

namespace CatalogSearch

abbrev Table (α : Type) := List (String × α)

namespace Table

variable {α : Type}

/-- The value stored under a key. -/
def find? (key : String) : Table α → Option α
  | [] => none
  | entry :: rest => if entry.1 = key then some entry.2 else find? key rest

/-- The table with a value stored under a key, in place of any earlier one. -/
def insert (key : String) (value : α) : Table α → Table α
  | [] => [(key, value)]
  | entry :: rest =>
    if entry.1 = key then (key, value) :: rest
    else if key < entry.1 then (key, value) :: entry :: rest
    else entry :: insert key value rest

/-- A table of the given entries, later ones winning. -/
def ofList (entries : List (String × α)) : Table α :=
  entries.foldl (fun table entry => insert entry.1 entry.2 table) []

@[simp]
theorem find?_nil (key : String) : find? key ([] : Table α) = none := rfl

theorem find?_insert_self (key : String) (value : α) (table : Table α) :
    find? key (insert key value table) = some value := by
  induction table with
  | nil => simp [insert, find?]
  | cons entry rest ih =>
    unfold insert
    split
    · simp [find?]
    · split
      · simp [find?]
      · simp_all [find?]

theorem find?_insert_other {key other : String} (h : other ≠ key) (value : α)
    (table : Table α) : find? other (insert key value table) = find? other table := by
  have h' : ¬key = other := fun heq => h heq.symm
  induction table with
  | nil => simp [insert, find?, h']
  | cons entry rest ih =>
    unfold insert
    split
    · next heq => simp [find?, h', heq]
    · split
      · simp [find?, h']
      · simp [find?, ih]

end Table

end CatalogSearch
