import CatalogSearch.Table
import Mathlib.Data.String.Basic

/-!
# Tables in order

The keys of a table increase, whatever is put into it and in which order.  So a table is
made up again by its own entries, and of entries with different keys each one is found.
-/

namespace CatalogSearch.Table

variable {α : Type}

/-- The keys of a table are in increasing order. -/
def Sorted (table : Table α) : Prop := table.Pairwise fun entry other => entry.1 < other.1

theorem sorted_nil : Sorted ([] : Table α) := List.Pairwise.nil

theorem mem_insert {key : String} {value : α} {table : Table α} {entry : String × α}
    (h : entry ∈ insert key value table) : entry = (key, value) ∨ entry ∈ table := by
  induction table with
  | nil => exact .inl (List.mem_singleton.1 h)
  | cons first rest ih =>
    unfold insert at h
    split at h
    · exact (List.mem_cons.1 h).imp_right (List.mem_cons_of_mem _)
    · split at h
      · exact List.mem_cons.1 h
      · obtain rfl | h := List.mem_cons.1 h
        · exact .inr List.mem_cons_self
        · exact (ih h).imp_right (List.mem_cons_of_mem _)

theorem Sorted.insert {table : Table α} (h : table.Sorted) (key : String) (value : α) :
    (Table.insert key value table).Sorted := by
  induction table with
  | nil => exact List.pairwise_singleton _ _
  | cons first rest ih =>
    obtain ⟨hfirst, hrest⟩ := List.pairwise_cons.1 h
    unfold Table.insert
    split
    · rename_i hkey
      exact List.pairwise_cons.2 ⟨hkey ▸ hfirst, hrest⟩
    · rename_i hkey
      split
      · rename_i hlt
        refine List.pairwise_cons.2 ⟨fun entry hentry => ?_, h⟩
        obtain rfl | hentry := List.mem_cons.1 hentry
        · exact hlt
        · exact hlt.trans (hfirst entry hentry)
      · rename_i hlt
        refine List.pairwise_cons.2 ⟨fun entry hentry => ?_, ih hrest⟩
        obtain rfl | hentry := mem_insert hentry
        · exact lt_of_le_of_ne (le_of_not_gt hlt) hkey
        · exact hfirst entry hentry

theorem mem_of_find? {key : String} {value : α} {table : Table α}
    (h : find? key table = some value) : (key, value) ∈ table := by
  induction table with
  | nil => cases h
  | cons first rest ih =>
    rw [find?] at h
    split at h
    · rename_i hkey
      cases h
      rw [← hkey]
      exact List.mem_cons_self
    · exact List.mem_cons_of_mem _ (ih h)

theorem find?_eq_none_of_lt {key : String} {table : Table α}
    (h : ∀ entry ∈ table, key < entry.1) : find? key table = none := by
  induction table with
  | nil => rfl
  | cons first rest ih =>
    have hne : ¬first.1 = key := (h first List.mem_cons_self).ne'
    rw [find?, if_neg hne]
    exact ih fun entry hentry => h entry (List.mem_cons_of_mem _ hentry)

theorem insert_of_forall_lt {key : String} {table : Table α} (h : ∀ entry ∈ table, entry.1 < key)
    (value : α) : insert key value table = table ++ [(key, value)] := by
  induction table with
  | nil => rfl
  | cons first rest ih =>
    obtain ⟨hfirst, hrest⟩ := List.forall_mem_cons.1 h
    rw [insert, if_neg hfirst.ne, if_neg hfirst.asymm, ih hrest]
    rfl

/-! ## Many entries -/

/-- A table after some entries were put into it, one by one. -/
def insertAll (table : Table α) (entries : List (String × α)) : Table α :=
  entries.foldl (fun table entry => insert entry.1 entry.2 table) table

theorem Sorted.insertAll {table : Table α} (h : table.Sorted) (entries : List (String × α)) :
    (insertAll table entries).Sorted := by
  induction entries generalizing table with
  | nil => exact h
  | cons entry entries ih => exact ih (h.insert entry.1 entry.2)

theorem mem_insertAll {table : Table α} {entries : List (String × α)} {entry : String × α}
    (h : entry ∈ insertAll table entries) : entry ∈ table ∨ entry ∈ entries := by
  induction entries generalizing table with
  | nil => exact .inl h
  | cons first entries ih =>
    obtain h | h := ih h
    · obtain rfl | h := mem_insert h
      · exact .inr List.mem_cons_self
      · exact .inl h
    · exact .inr (List.mem_cons_of_mem _ h)

theorem insertAll_of_sorted {table entries : Table α} (h : (table ++ entries).Sorted) :
    insertAll table entries = table ++ entries := by
  induction entries generalizing table with
  | nil => exact (List.append_nil table).symm
  | cons entry entries ih =>
    have hlast := fun other hother =>
      (List.pairwise_append.1 h).2.2 other hother entry List.mem_cons_self
    rw [List.append_cons] at h
    rw [insertAll, List.foldl_cons, insert_of_forall_lt hlast]
    exact (ih h).trans (List.append_cons _ _ _).symm

theorem find?_insertAll_of_notMem {table : Table α} {entries : List (String × α)} {key : String}
    (h : key ∉ entries.map Prod.fst) : find? key (insertAll table entries) = find? key table := by
  induction entries generalizing table with
  | nil => rfl
  | cons entry entries ih =>
    obtain ⟨hne, hnew⟩ := List.ne_and_not_mem_of_not_mem_cons h
    exact (ih hnew).trans (find?_insert_other hne _ _)

theorem find?_insertAll_of_mem {table : Table α} {entries : List (String × α)} {key : String}
    {value : α} (hkeys : (entries.map Prod.fst).Nodup) (h : (key, value) ∈ entries) :
    find? key (insertAll table entries) = some value := by
  induction entries generalizing table with
  | nil => cases h
  | cons entry entries ih =>
    obtain ⟨hnew, hkeys⟩ := List.nodup_cons.1 hkeys
    obtain rfl | h := List.mem_cons.1 h
    · exact (find?_insertAll_of_notMem hnew).trans (find?_insert_self _ _ _)
    · exact ih hkeys h

/-- Where no key occurs twice, each entry is found. -/
theorem find?_ofList_of_mem {entries : List (String × α)} (hkeys : (entries.map Prod.fst).Nodup)
    {key : String} {value : α} (h : (key, value) ∈ entries) :
    find? key (ofList entries) = some value :=
  find?_insertAll_of_mem hkeys h

theorem mem_of_mem_ofList {entries : List (String × α)} {entry : String × α}
    (h : entry ∈ ofList entries) : entry ∈ entries :=
  (mem_insertAll h).resolve_left List.not_mem_nil

/-- The entries of a table make up the same table. -/
theorem ofList_ofList (entries : List (String × α)) : ofList (ofList entries) = ofList entries :=
  insertAll_of_sorted (sorted_nil.insertAll entries)

end CatalogSearch.Table
