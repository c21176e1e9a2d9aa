import CatalogSearch.Proofs.Cql.Depth
import CatalogSearch.Proofs.Cql.Stored
import CatalogSearch.Query.Saved

/-!
# Saving and restoring queries

A saved query is restored as it was, but for the mark that it has changed, where the tree of
its filter can be read back.  Elsewhere its filter is read from the query text, which says
the same in normal form, and a filter that restricts nothing gives way to that of a new query.
-/

namespace CatalogSearch

/-- Whether the stored tree of a filter can be read: there are no more levels than may be, and
no group without operands on the last of them, which would nest one deeper than a predicate. -/
def Filter.KeptByTree (filter : Filter) : Prop :=
  filter.levels ≤ Cql.treeLimit ∧ ¬filter.HasEmptyGroupOn Cql.treeLimit

instance (filter : Filter) : Decidable filter.KeptByTree :=
  inferInstanceAs (Decidable (_ ∧ _))

namespace Query

variable {query : Query}

theorem treeFilter?_toSaved (hleaves : ∀ leaf ∈ query.filter.leaves, Cql.Storable leaf) :
    query.toSaved.treeFilter? = if query.filter.KeptByTree then some query.filter else none := by
  have hdepth : (Cql.toTree query.filter).depth ≤ SavedQuery.textLevels ↔
      query.filter.KeptByTree := @Cql.depth_toTree_le_iff query.filter 63
  have hread := (Cql.canonical_toTree hleaves).read?_compress SavedQuery.textLevels
  have htree : query.toSaved.treeFilter? =
      (Json.read? SavedQuery.textLevels (Cql.toTree query.filter).compress).bind fun value =>
        (Cql.ofTree value).toOption := rfl
  rw [htree, hread]
  by_cases hkept : query.filter.KeptByTree
  · rw [if_pos (hdepth.2 hkept), if_pos hkept, Option.bind_some, Cql.ofTree,
      Cql.filter_toTree hkept.1 hleaves]
    rfl
  · rw [if_neg fun h => hkept (hdepth.1 h), if_neg hkept]
    rfl

/-- All but the filter is restored from where it is stored. -/
theorem ofSaved_toSaved (freshId : String) (hid : Text.isBlankString query.id = false)
    (hsorts : query.sorts ≠ []) :
    ofSaved freshId query.toSaved =
      query.toSaved.filter.map fun filter => { query with filter, outdated := false } := by
  have hkept : (some query.id).filter (fun id => !Text.isBlankString id) = some query.id := by
    rw [Option.filter_some, hid]
    rfl
  have hfull : query.sorts.isEmpty = false := List.isEmpty_eq_false_iff.2 hsorts
  rw [ofSaved]
  simp only [toSaved, hkept, hfull, Option.getD_some, Bool.false_eq_true, if_false]

section Restored

variable (freshId : String) (hid : Text.isBlankString query.id = false) (hsorts : query.sorts ≠ [])
  (hleaves : ∀ leaf ∈ query.filter.leaves, Cql.Storable leaf)

include hid hsorts hleaves

theorem ofSaved_of_kept (hkept : query.filter.KeptByTree) :
    ofSaved freshId query.toSaved = .ok { query with outdated := false } := by
  rw [ofSaved_toSaved freshId hid hsorts, SavedQuery.filter, treeFilter?_toSaved hleaves,
    if_pos hkept]
  rfl

/-- Without a readable tree the filter is that of the text, or that of a new query. -/
theorem ofSaved_of_not_kept (hlost : ¬query.filter.KeptByTree) :
    ofSaved freshId query.toSaved =
      (if Text.isBlankString (Cql.toText query.filter) then .ok .anyText
        else Cql.parse (Cql.toText query.filter)).map
        fun filter => { query with filter, outdated := false } := by
  rw [ofSaved_toSaved freshId hid hsorts, SavedQuery.filter, treeFilter?_toSaved hleaves,
    if_neg hlost]
  rfl

theorem ofSaved_of_expressible (hlost : ¬query.filter.KeptByTree)
    (hempty : query.filter.isEmpty = false)
    (hexpressible : ∀ leaf ∈ query.filter.leaves, leaf.Expressible)
    (hnesting : query.filter.normalForm.nesting ≤ Cql.nestingLimit) :
    ofSaved freshId query.toSaved =
      .ok { query with filter := query.filter.normalForm, outdated := false } := by
  rw [ofSaved_of_not_kept freshId hid hsorts hleaves hlost,
    Cql.isBlankString_toText hexpressible hempty, if_neg Bool.false_ne_true,
    Cql.parse_toText hexpressible hnesting]
  rfl

theorem ofSaved_of_isEmpty (hlost : ¬query.filter.KeptByTree)
    (hempty : query.filter.isEmpty = true) :
    ofSaved freshId query.toSaved = .ok { query with filter := .anyText, outdated := false } := by
  rw [ofSaved_of_not_kept freshId hid hsorts hleaves hlost,
    (Cql.toText_eq_empty_iff query.filter).2 hempty]
  rfl

end Restored

/-- What is restored of a saved query with an id and keys, none of whose names and numbers a
stored tree changes: the query itself if the tree of its filter can be read, and else the
filter in normal form, as far as query text can say it. -/
theorem restored_from_tree_or_text (freshId : String)
    (hid : Text.isBlankString query.id = false) (hsorts : query.sorts ≠ [])
    (hleaves : ∀ leaf ∈ query.filter.leaves, Cql.Storable leaf) :
    (query.filter.KeptByTree →
      ofSaved freshId query.toSaved = .ok { query with outdated := false }) ∧
    (¬query.filter.KeptByTree → query.filter.isEmpty = false →
      (∀ leaf ∈ query.filter.leaves, leaf.Expressible) →
      query.filter.normalForm.nesting ≤ Cql.nestingLimit →
        ofSaved freshId query.toSaved =
          .ok { query with filter := query.filter.normalForm, outdated := false }) ∧
    (¬query.filter.KeptByTree → query.filter.isEmpty = true →
      ofSaved freshId query.toSaved = .ok { query with filter := .anyText, outdated := false }) :=
  ⟨ofSaved_of_kept freshId hid hsorts hleaves, ofSaved_of_expressible freshId hid hsorts hleaves,
    ofSaved_of_isEmpty freshId hid hsorts hleaves⟩

/-- A filter inside a number of groups around one operand. -/
def wrapped : Nat → Filter → Filter
  | 0, filter => filter
  | count + 1, filter => .and [wrapped count filter]

theorem leaves_wrapped (count : Nat) (filter : Filter) :
    (wrapped count filter).leaves = filter.leaves := by
  induction count with
  | zero => rfl
  | succ count ih => rw [wrapped, Filter.leaves, Filter.allLeaves, Filter.allLeaves, ih,
      List.append_nil]

/-- A number and an empty group are restored from the tree, and a predicate below sixty-four
groups from the text. -/
theorem restored_large_or_untitled :
    let large := { create "7" "large" with
      filter := .or [.compare "size" .greater (.number (.ofInt 1)), .not (.and [])] }
    let untitled := { create "8" "untitled" with filter := wrapped 64 (.isNull "title") }
    ofSaved "9" large.toSaved = .ok large ∧
      ofSaved "9" untitled.toSaved = .ok { untitled with filter := .isNull "title" } := by
  intro large untitled
  have hsize : Cql.KeptName "size" :=
    ⟨by decide, fun _ h => Option.some.inj h ▸ rfl, fun _ h => Option.some.inj h ▸ rfl, by simp⟩
  have htitle : Cql.KeptName "title" :=
    ⟨by decide, fun _ h => Option.some.inj h ▸ rfl, fun _ h => Option.some.inj h ▸ rfl, by simp⟩
  have hone : Cql.KeptNumber (.ofInt 1) := ⟨by decide +kernel, by decide +kernel⟩
  have hlarge : ∀ leaf ∈ large.filter.leaves, Cql.Storable leaf :=
    List.forall_mem_singleton.2 ⟨fun _ h => Option.some.inj h ▸ hsize, fun _ h =>
      List.mem_singleton.1 h ▸ hone⟩
  have hleaves : untitled.filter.leaves = [.isNull "title"] := leaves_wrapped _ _
  have huntitled : ∀ leaf ∈ untitled.filter.leaves, Cql.Storable leaf := by
    rw [hleaves]
    exact List.forall_mem_singleton.2 ⟨fun _ h => Option.some.inj h ▸ htitle, nofun⟩
  have hexpressible : ∀ leaf ∈ untitled.filter.leaves, leaf.Expressible := by
    rw [hleaves]
    exact List.forall_mem_singleton.2 trivial
  constructor
  · exact (restored_from_tree_or_text "9" (by decide) (by decide) hlarge).1 (by decide)
  · have hrestored := restored_from_tree_or_text "9" (by decide) (by decide) huntitled
    exact hrestored.2.1 (by decide +kernel) (by decide +kernel) hexpressible (by decide +kernel)

/-- A group without operands inside sixty-three others nests one deeper than the text of a tree
may, though there may be nodes on its level. -/
theorem deepest_empty_group_is_lost :
    let query := { create "7" "empty" with filter := wrapped 63 (.and []) }
    Text.isBlankString query.id = false ∧ query.sorts ≠ [] ∧ query.filter.leaves = [] ∧
      query.filter.levels = Cql.treeLimit ∧
      Cql.ofTree (Cql.toTree query.filter) = .ok query.filter ∧
      ofSaved "9" query.toSaved = .ok { query with filter := .anyText } ∧
      ofSaved "9" query.toSaved ≠ .ok { query with outdated := false } := by
  intro query
  have hnone : query.filter.leaves = [] := leaves_wrapped _ _
  have hleaves : ∀ leaf ∈ query.filter.leaves, Cql.Storable leaf := by
    rw [hnone]
    nofun
  have hlevels : query.filter.levels = Cql.treeLimit := by decide +kernel
  have hid : Text.isBlankString query.id = false := by decide
  have hsorts : query.sorts ≠ [] := nofun
  have hrestored := ofSaved_of_isEmpty "9" hid hsorts hleaves (by decide +kernel)
    (by decide +kernel)
  refine ⟨hid, hsorts, hnone, hlevels, Cql.filter_toTree (Nat.le_of_eq hlevels) hleaves _, hrestored, ?_⟩
  intro h
  have hfilter := congrArg Query.filter (Except.ok.inj (hrestored.symm.trans h))
  cases hfilter

end Query

end CatalogSearch
