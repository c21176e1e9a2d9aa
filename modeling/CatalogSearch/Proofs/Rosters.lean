import CatalogSearch.Roster
import Mathlib.Data.List.Nodup

/-!
# Entering and finding

An entry is put in the place of the one with its name, or at the end.  Where no name occurs
twice it is found by its name, and changes under different names do not meet.
-/

namespace CatalogSearch

namespace Roster

variable {α : Type} (name : α → String)

/-! ## Entering -/

/-- Entering a name that is there changes its entry in place. -/
theorem enter_eq_adjust {key : String} (fresh : α) {change : α → α} {entries : List α}
    (h : key ∈ entries.map name) :
    enter name key fresh change entries = adjust name key change entries := by
  induction entries with
  | nil => cases h
  | cons entry rest ih =>
    rw [enter, adjust]
    split
    · rfl
    · rename_i hother
      have hrest : key ∈ rest.map name := by
        obtain rfl | h := List.mem_cons.1 h
        · exact absurd rfl hother
        · exact h
      rw [ih hrest]

/-- Entering a name that is there keeps all names in their order. -/
theorem map_enter_of_mem {key : String} (fresh : α) {change : α → α}
    (hchange : ∀ entry, name (change entry) = name entry) {entries : List α}
    (h : key ∈ entries.map name) :
    (enter name key fresh change entries).map name = entries.map name := by
  rw [enter_eq_adjust name fresh h]
  exact map_adjust name key change hchange entries

/-- An entry of a new name is put at the end. -/
theorem enter_eq_append {key : String} (fresh : α) {change : α → α} {entries : List α}
    (h : key ∉ entries.map name) :
    enter name key fresh change entries = entries ++ [change fresh] := by
  induction entries with
  | nil => rfl
  | cons entry rest ih =>
    rw [List.map_cons, List.mem_cons, not_or] at h
    rw [enter, if_neg (Ne.symm h.1), ih h.2, List.cons_append]

theorem nodup_map_enter {key : String} {fresh : α} {change : α → α} (hfresh : name fresh = key)
    (hchange : ∀ entry, name (change entry) = name entry) {entries : List α}
    (h : (entries.map name).Nodup) :
    ((enter name key fresh change entries).map name).Nodup := by
  by_cases hkey : key ∈ entries.map name
  · rwa [map_enter_of_mem name fresh hchange hkey]
  · rw [enter_eq_append name fresh hkey, List.map_append, List.map_singleton, hchange, hfresh]
    exact List.nodup_append_comm.2 (List.nodup_cons.2 ⟨hkey, h⟩)

/-- Entering an entry puts it in the place of the one with its name, or at the end. -/
theorem map_name_enter_entry (entry : α) (entries : List α) :
    (enter name (name entry) entry (fun _ => entry) entries).map name =
      if name entry ∈ entries.map name then entries.map name
      else entries.map name ++ [name entry] := by
  induction entries with
  | nil => rfl
  | cons first rest ih =>
    unfold enter
    by_cases hname : name first = name entry
    · simp [hname]
    · rw [if_neg hname, List.map_cons, ih]
      by_cases hmem : name entry ∈ rest.map name <;> simp [hmem, Ne.symm hname]

/-- Entries of new names are put behind all others, in their order. -/
theorem foldl_enter_eq_append {entries more : List α}
    (h : ((entries ++ more).map name).Nodup) :
    more.foldl (fun all entry => enter name (name entry) entry (fun _ => entry) all) entries =
      entries ++ more := by
  induction more generalizing entries with
  | nil => rw [List.foldl_nil, List.append_nil]
  | cons entry more ih =>
    have hsplit : entries ++ entry :: more = entries ++ [entry] ++ more := by simp
    have hnew : name entry ∉ entries.map name := by
      rw [hsplit, List.map_append, List.map_append, List.map_singleton] at h
      exact fun hmem =>
        List.disjoint_of_nodup_append h.of_append_left hmem (List.mem_singleton_self _)
    rw [List.foldl_cons, enter_eq_append name entry hnew, ih (hsplit ▸ h), ← hsplit]

/-- Among the entries of some names one is changed if it is of such a name, and none else. -/
theorem filter_enter {name : α → String} {key : String} {fresh : α} {change : α → α}
    (hfresh : name fresh = key)
    (hchange : ∀ entry, name (change entry) = name entry) (keeps : String → Bool)
    (entries : List α) :
    (enter name key fresh change entries).filter (fun entry => keeps (name entry)) =
      if keeps key then
        enter name key fresh change (entries.filter fun entry => keeps (name entry))
      else entries.filter fun entry => keeps (name entry) := by
  induction entries with
  | nil => cases hkey : keeps key <;> simp [enter, hchange, hfresh, hkey]
  | cons entry rest ih =>
    by_cases hname : name entry = key
    · cases hkey : keeps key <;> simp [enter, hname, hchange, hkey]
    · cases hkey : keeps key <;> cases hentry : keeps (name entry) <;>
        simp_all [enter]

/-! ## Changing -/

/-- Changes in the places of two names can be made in either order. -/
theorem adjust_adjust_comm {name : α → String} {key other : String} {change another : α → α}
    (h : key ≠ other)
    (hchange : ∀ entry, name (change entry) = name entry)
    (hanother : ∀ entry, name (another entry) = name entry) (entries : List α) :
    adjust name other another (adjust name key change entries) =
      adjust name key change (adjust name other another entries) := by
  induction entries with
  | nil => rfl
  | cons entry rest ih =>
    by_cases hkey : name entry = key
    · simp only [adjust, hkey, hchange, if_true, if_false, h]
    · by_cases hother : name entry = other
      · simp only [adjust, hother, hanother, if_true, if_false, Ne.symm h]
      · simp only [adjust, hkey, hother, if_false, ih]

/-! ## Finding -/

theorem mem_of_find? {key : String} {entries : List α} {entry : α}
    (h : find? name key entries = some entry) : entry ∈ entries ∧ name entry = key := by
  induction entries with
  | nil => cases h
  | cons first rest ih =>
    rw [find?] at h
    split at h
    · rename_i hname
      rw [← Option.some.inj h]
      exact ⟨List.mem_cons_self, hname⟩
    · exact ⟨List.mem_cons_of_mem _ (ih h).1, (ih h).2⟩

theorem isSome_find? (key : String) (entries : List α) :
    (find? name key entries).isSome = entries.any fun entry => name entry == key := by
  induction entries with
  | nil => rfl
  | cons entry rest ih =>
    rw [find?, List.any_cons, ← ih]
    by_cases hname : name entry = key <;> simp [hname]

/-- In a roster without a name twice every entry is found by its name. -/
theorem find?_of_mem {entries : List α} (hnodup : (entries.map name).Nodup) {entry : α}
    (h : entry ∈ entries) : find? name (name entry) entries = some entry := by
  induction entries with
  | nil => cases h
  | cons first rest ih =>
    rw [List.map_cons, List.nodup_cons] at hnodup
    obtain rfl | h := List.mem_cons.1 h
    · rw [find?, if_pos rfl]
    · have hne : name first ≠ name entry := fun heq =>
        hnodup.1 (heq ▸ List.mem_map_of_mem h)
      rw [find?, if_neg hne]
      exact ih hnodup.2 h

/-- In a roster without a name twice the entries of a name are what is found by it. -/
theorem filter_eq_toList_find? {entries : List α} (hnodup : (entries.map name).Nodup)
    (key : String) :
    (entries.filter fun entry => name entry == key) = (find? name key entries).toList := by
  induction entries with
  | nil => rfl
  | cons entry rest ih =>
    rw [List.map_cons, List.nodup_cons] at hnodup
    rw [find?]
    split
    · rename_i hname
      have hnone : (rest.filter fun other => name other == key) = [] :=
        List.filter_eq_nil_iff.2 fun other hother hsame =>
          hnodup.1 (hname ▸ eq_of_beq hsame ▸ List.mem_map_of_mem hother)
      rw [List.filter_cons_of_pos (by simpa using hname), hnone]
      rfl
    · rename_i hname
      rw [List.filter_cons_of_neg (by simpa using hname)]
      exact ih hnodup.2

theorem find?_map (key : String) {change : α → α}
    (hchange : ∀ entry, name (change entry) = name entry) (entries : List α) :
    find? name key (entries.map change) = (find? name key entries).map change := by
  induction entries with
  | nil => rfl
  | cons entry rest ih =>
    rw [List.map_cons, find?, find?, hchange, ih]
    split <;> rfl

/-- Where no name occurs twice, entries are found whatever their order is. -/
theorem find?_perm {name : α → String} {entries others : List α} (hperm : entries.Perm others)
    (hnodup : (entries.map name).Nodup) (key : String) :
    find? name key entries = find? name key others := by
  have hnodup' : (others.map name).Nodup := (hperm.map name).nodup_iff.1 hnodup
  cases hfind : find? name key others with
  | some entry =>
    obtain ⟨hmem, rfl⟩ := mem_of_find? name hfind
    exact find?_of_mem name hnodup (hperm.mem_iff.2 hmem)
  | none =>
    cases hfind' : find? name key entries with
    | none => rfl
    | some entry =>
      obtain ⟨hmem, rfl⟩ := mem_of_find? name hfind'
      rw [find?_of_mem name hnodup' (hperm.mem_iff.1 hmem)] at hfind
      cases hfind

end Roster

end CatalogSearch
