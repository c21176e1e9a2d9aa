import CatalogSearch.Proofs.Cql.Narrowing

/-!
# Filters that are stored once more

What a tree is read as may be stored and read again.  That keeps the operators, the values
and the numbers, however leniently they were read at first.  A name, though, is read anew
each time: white space around it and a layer of quotes are taken off again.
-/

namespace CatalogSearch

namespace Cql

/-! ## Names -/

namespace Tree

theorem undouble_sublist (text : List Char) : List.Sublist (undouble text) text := by
  fun_induction undouble text with
  | case1 => exact .slnil
  | case2 rest ih => exact (ih.cons _).cons_cons _
  | case3 c rest _ ih => exact ih.cons_cons _

theorem unwrapName_sublist (name : List Char) : List.Sublist (unwrapName name) name := by
  unfold unwrapName
  split
  · split
    · exact ((undouble_sublist _).trans (List.dropLast_sublist _)).cons _
    · exact .refl _
  · exact .refl _

theorem unwrapName_quoted (inner : List Char) :
    unwrapName ('"' :: (inner ++ ['"'])) = undouble inner := by
  simp [unwrapName]

end Tree

/-- A name is kept just if it is read as itself. -/
theorem keptName_iff {name : String} :
    KeptName name ↔ rereadName name ≠ "" ∧ rereadName name = name := by
  constructor
  · intro h
    exact ⟨h.rereadName_eq.symm ▸ h.ne_empty, h.rereadName_eq⟩
  · rintro ⟨hne, hsame⟩
    have hlist := congrArg String.toList hsame
    rw [rereadName, String.toList_ofList] at hlist
    -- Each step only leaves characters out, so neither of them leaves any out.
    have hunwrap := Tree.unwrapName_sublist (Text.trim name.toList)
    rw [hlist] at hunwrap
    have htrim : Text.trim name.toList = name.toList :=
      (Text.trim_sublist _).eq_of_length_le hunwrap.length_le
    obtain ⟨hfirst, hlast⟩ := Text.trim_eq_self_iff.1 htrim
    refine ⟨hsame ▸ hne, hfirst, hlast, ?_⟩
    rintro ⟨inner, hquoted⟩
    rw [htrim, hquoted, Tree.unwrapName_quoted] at hlist
    have hlength := (Tree.undouble_sublist inner).length_le
    rw [hlist, List.length_cons, List.length_append] at hlength
    omega

/-! ## Trees -/

/-- What a tree is read as has no more levels than the tree may have. -/
theorem Tree.levels_of_filter {levels : Nat} {path : String} {value : Json} {filter : Filter}
    (h : Tree.filter levels path value = .ok filter) : filter.levels ≤ levels := by
  induction levels generalizing path value filter with
  | zero => cases h
  | succ levels ih =>
    rw [Filter.levels_eq, Nat.add_le_add_iff_right, Filter.operandsLevels_le_iff]
    obtain ⟨node, -, ⟨filters, hfilters, hfilter⟩ | ⟨type, hleaf⟩⟩ := cases_of_filter h
    · have hoperands : ∀ operand ∈ filters, operand.levels ≤ levels := by
        intro operand hmem
        obtain ⟨items, -, place, item, -, hitem⟩ := exists_of_mem_operands hfilters hmem
        exact ih hitem
      obtain rfl | rfl | ⟨child, rfl, rfl⟩ := hfilter
      · exact hoperands
      · exact hoperands
      · exact hoperands
    · have hnone := isLeaf_of_leaf hleaf
      have hoperands : filter.operands = [] := by
        cases filter <;> first | rfl | cases hnone
      rw [hoperands]
      nofun

/-- The filter of a tree, stored and read again, is the same on the names that its own are read
as.  It is read at all just if none of them is read as no name, and unchanged just if each is
read as itself. -/
theorem reloading_rereads_names {value : Json} {filter : Filter} (hvalue : value.Finite)
    (htree : ofTree value = .ok filter) :
    (ofTree (toTree filter) = .ok filter ↔ ∀ name ∈ filter.names, KeptName name) ∧
      ∀ other, ofTree (toTree filter) = .ok other ↔
        (∀ name ∈ filter.names, rereadName name ≠ "") ∧ other = filter.renamed rereadName := by
  have hreload : ∀ other, ofTree (toTree filter) = .ok other ↔
      (∀ name ∈ filter.names, rereadName name ≠ "") ∧ other = filter.renamed rereadName :=
    fun other => filter_toTree_eq_ok_iff (Tree.levels_of_filter htree)
      (Tree.finite_of_filter hvalue htree) "$"
  refine ⟨?_, hreload⟩
  rw [hreload, eq_comm, Filter.renamed_eq_self_iff, ← forall₂_and]
  exact forall₂_congr fun name _ => keptName_iff.symm

/-- A tree of types in small letters, with quotes and white space around its names, an integer
and a unit left out. -/
def lenientTree : Json :=
  .object
    [("filters", .array
      [.object [("distance", .number (.integer 5)), ("property", .string "\"lo\"\"c\""),
        ("type", .string "dwithin"), ("value", .string "POINT(1 2)")],
      .object [("property", .string "  title "), ("type", .string "is null")]]),
    ("type", .string "and")]

theorem lenient_tree_is_kept :
    let filter : Filter :=
      .and [.within "lo\"c" "POINT(1 2)" (.ofInt 5) "meters", .isNull "title"]
    lenientTree.Finite ∧ ofTree lenientTree = .ok filter ∧
      ofTree (toTree filter) = .ok filter := by
  intro filter
  have hwithin : (Json.number (.integer 5)).Finite := .number (by decide +kernel)
  have hfinite : lenientTree.Finite := by
    refine .object (List.forall_mem_cons.2 ⟨.array ?_, List.forall_mem_singleton.2 (.string _)⟩)
    refine List.forall_mem_cons.2 ⟨.object ?_, List.forall_mem_singleton.2 (.object ?_)⟩
    · exact List.forall_mem_cons.2 ⟨hwithin, by simp [Json.Finite.string]⟩
    · simp [Json.Finite.string]
  have htree : ofTree lenientTree = .ok filter := by decide +kernel
  have hnames : ∀ name ∈ filter.names, rereadName name ≠ "" ∧ rereadName name = name := by
    decide +kernel
  refine ⟨hfinite, htree, (reloading_rereads_names hfinite htree).1.2 fun name hname => ?_⟩
  exact keptName_iff.2 (hnames name hname)

/-- A name in quotes within quotes loses both layers, one at each reading, and a name of white
space between quotes is read as no name at the second. -/
theorem quotes_come_off_twice :
    (let tree : Json :=
      .object [("property", .string "\"\"\"title\"\"\""), ("type", .string "IS NULL")]
    let filter : Filter := .isNull "\"title\""
    ofTree tree = .ok filter ∧ ofTree (toTree filter) = .ok (.isNull "title") ∧
      ofTree (toTree filter) ≠ .ok filter) ∧
    let tree : Json := .object [("property", .string "\" \""), ("type", .string "IS NULL")]
    let filter : Filter := .isNull " "
    ofTree tree = .ok filter ∧
      ofTree (toTree filter) = .error ⟨"$.property", .emptyProperty⟩ := by
  decide +kernel

end Cql

end CatalogSearch
