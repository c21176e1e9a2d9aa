/-!
# Rosters

A roster is a list of entries that are found by a name of theirs, in the order in
which they were first entered.  Changes go to the first entry of a name; entering
an unknown name appends it.
-/

namespace CatalogSearch.Roster

variable {α : Type}

/-- The first entry of a name. -/
def find? (name : α → String) (key : String) : List α → Option α
  | [] => none
  | entry :: rest => if name entry = key then some entry else find? name key rest

/-- The roster with the first entry of a name changed, if there is one. -/
def adjust (name : α → String) (key : String) (change : α → α) : List α → List α
  | [] => []
  | entry :: rest =>
    if name entry = key then change entry :: rest else entry :: adjust name key change rest

/-- The roster with the entry of a name changed, where an unknown name is first
entered as `fresh`. -/
def enter (name : α → String) (key : String) (fresh : α) (change : α → α) : List α → List α
  | [] => [change fresh]
  | entry :: rest =>
    if name entry = key then change entry :: rest
    else entry :: enter name key fresh change rest

theorem map_adjust (name : α → String) (key : String) (change : α → α)
    (hchange : ∀ entry, name (change entry) = name entry) (entries : List α) :
    (adjust name key change entries).map name = entries.map name := by
  induction entries with
  | nil => rfl
  | cons entry rest ih =>
    unfold adjust
    split <;> simp [hchange, ih]

theorem find?_enter_self (name : α → String) (key : String) (fresh : α) (change : α → α)
    (hfresh : name fresh = key) (hchange : ∀ entry, name (change entry) = name entry)
    (entries : List α) :
    find? name key (enter name key fresh change entries) =
      some (change ((find? name key entries).getD fresh)) := by
  induction entries with
  | nil => simp [enter, find?, hchange, hfresh]
  | cons entry rest ih =>
    unfold enter
    split
    · simp_all [find?]
    · simp_all [find?]

theorem find?_enter_other (name : α → String) {key other : String} (h : other ≠ key) (fresh : α)
    (change : α → α) (hfresh : name fresh = key)
    (hchange : ∀ entry, name (change entry) = name entry) (entries : List α) :
    find? name other (enter name key fresh change entries) = find? name other entries := by
  have h' : ¬key = other := fun heq => h heq.symm
  induction entries with
  | nil => simp [enter, find?, hchange, hfresh, h']
  | cons entry rest ih =>
    unfold enter
    split
    · next heq => simp [find?, hchange, heq, h']
    · simp [find?, ih]

end CatalogSearch.Roster
