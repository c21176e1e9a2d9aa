import CatalogSearch.Proofs.Cql.Narrowing

/-!
# Leaves of trees in query text

A tree may hold leaves that query text cannot say: a pattern that is no text, a period with
a slash in its start, a geometry or a unit that does not read as one.  What is written for
such a leaf is refused or read as something else, and so is what is written for the tree.
-/

namespace CatalogSearch

namespace Filter

variable {filter leaf : Filter} {operands : List Filter}

theorem isLeaf_of_mem_leaves (h : leaf ∈ filter.leaves) : leaf.isLeaf = true := by
  induction filter using Filter.induction with
  | step filter ih =>
    cases filter with
    | and operands | or operands =>
      obtain ⟨operand, hoperand, h⟩ := exists_of_mem_allLeaves h
      exact ih operand hoperand h
    | not operand => exact ih operand (List.mem_singleton_self _) h
    | _ =>
      rw [List.mem_singleton.1 h]
      rfl

theorem normalForm_of_isLeaf (h : leaf.isLeaf = true) : leaf.normalForm = leaf := by
  cases leaf <;> first | rfl | cases h

theorem leaves_of_isEmpty (h : filter.isEmpty = true) : filter.leaves = [] := by
  induction filter using Filter.induction with
  | step filter ih =>
    cases filter with
    | and operands | or operands =>
      rw [isEmpty, allEmpty_eq_all, List.all_eq_true] at h
      rw [leaves, allLeaves_eq_flatMap, List.flatMap_eq_nil_iff]
      exact fun operand hoperand => ih operand hoperand (h operand hoperand)
    | not operand => exact ih operand (List.mem_singleton_self _) h
    | _ => cases h

theorem leaves_joined {join : List Filter → Filter}
    (hjoin : ∀ operands, (join operands).leaves = allLeaves operands) (operands : List Filter) :
    (joined join operands).leaves = allLeaves operands := by
  unfold joined
  split
  · rfl
  · rw [allLeaves, allLeaves, List.append_nil]
  · exact hjoin operands

theorem allLeaves_normalForms
    (h : ∀ operand ∈ operands, operand.normalForm.leaves = operand.leaves) :
    allLeaves (normalForms operands) = allLeaves operands := by
  induction operands with
  | nil => rfl
  | cons operand operands ih =>
    obtain ⟨hfirst, hmore⟩ := List.forall_mem_cons.1 h
    rw [normalForms, allLeaves]
    split
    · rename_i hempty
      rw [ih hmore, leaves_of_isEmpty hempty, List.nil_append]
    · rw [allLeaves, hfirst, ih hmore]

/-- What the normal form of a filter leaves out has no leaves. -/
theorem leaves_normalForm (filter : Filter) : filter.normalForm.leaves = filter.leaves := by
  induction filter using Filter.induction with
  | step filter ih =>
    cases filter with
    | and operands | or operands =>
      rw [normalForm, leaves_joined (fun _ => rfl)]
      exact allLeaves_normalForms ih
    | not operand =>
      rw [normalForm]
      split
      · rename_i hempty
        exact (leaves_of_isEmpty hempty).symm
      · exact ih operand (List.mem_singleton_self _)
    | _ => rfl

theorem Expressible.sayable (h : leaf.Expressible) : leaf.Sayable := by
  cases leaf with
  | compare => exact h.2
  | between => trivial
  | within => exact ⟨h.1, h.2.2⟩
  | _ => exact h

end Filter

namespace Cql

/-- Only a filter whose leaves query text can say is read back in normal form. -/
theorem expressible_of_parse_toText {filter : Filter}
    (h : parse (toText filter) = .ok filter.normalForm) :
    ∀ leaf ∈ filter.leaves, leaf.Expressible := by
  rw [← Filter.leaves_normalForm]
  obtain hempty | hfaithful := faithful_of_parse h
  · rw [hempty]
    nofun
  · exact hfaithful.expressible

theorem parse_leaf_eq_ok_iff {leaf : Filter} (h : leaf.isLeaf = true) :
    parse (toText leaf) = .ok leaf ↔ leaf.Expressible := by
  have hnormal := Filter.normalForm_of_isLeaf h
  have hleaves := Filter.leaves_of_isLeaf h
  constructor
  · intro hparse
    apply expressible_of_parse_toText (hparse.trans (congrArg _ hnormal.symm))
    rw [hleaves]
    exact List.mem_singleton_self _
  · intro hexpressible
    have hall : ∀ other ∈ leaf.leaves, other.Expressible := by
      rw [hleaves]
      exact List.forall_mem_singleton.2 hexpressible
    have hnesting : leaf.normalForm.nesting ≤ nestingLimit := by
      rw [Filter.nesting_of_isLeaf h]
      exact Nat.zero_le _
    exact (parse_toText hall hnesting).trans (congrArg _ hnormal)

/-- What is written for a leaf of a tree is read as that leaf just if query text can say it,
and what is written for the tree is read as its normal form just if query text can say every
leaf.  Names and numbers never stand in the way, and no instant but the start of a period. -/
theorem tree_is_said_by_its_leaves {value : Json} {filter : Filter} (hvalue : value.Finite)
    (htree : ofTree value = .ok filter) :
    (∀ leaf ∈ filter.leaves, (parse (toText leaf) = .ok leaf ↔ leaf.Sayable)) ∧
      (parse (toText filter) = .ok filter.normalForm ↔ ∀ leaf ∈ filter.leaves, leaf.Sayable) := by
  constructor
  · intro leaf hleaf
    have hnumbers := Tree.finite_of_filter hvalue htree leaf hleaf
    rw [parse_leaf_eq_ok_iff (Filter.isLeaf_of_mem_leaves hleaf)]
    exact ⟨fun h => h.sayable, fun h => h.expressible hnumbers⟩
  · constructor
    · exact fun hparse leaf hleaf => (expressible_of_parse_toText hparse leaf hleaf).sayable
    · intro hsayable
      have hnesting := Tree.nesting_of_filter htree
      refine parse_toText (expressible_of_ofTree hvalue htree hsayable) ?_
      simp only [treeLimit, nestingLimit] at hnesting ⊢
      omega

/-- A period as a saved search may hold it. -/
def periodTree : Json :=
  .object [("from", .string "2020-01-01"), ("property", .string "\"created\""),
    ("to", .string "2020/02"), ("type", .string "during")]

/-- A pattern that is a number. -/
def numberPatternTree : Json :=
  .object [("property", .string "title"), ("type", .string "LIKE"),
    ("value", .number (.integer 5))]

def period : Filter := .during "created" "2020-01-01" "2020/02"

def numberPattern : Filter := .compare "title" .like (.number (.ofInt 5))

theorem period_is_said_beside_number_pattern :
    let tree : Json :=
      .object [("filters", .array [periodTree, numberPatternTree]), ("type", .string "OR")]
    let filter : Filter := .or [period, numberPattern]
    tree.Finite ∧ ofTree tree = .ok filter ∧ parse (toText period) = .ok period ∧
      parse (toText numberPattern) ≠ .ok numberPattern ∧
      parse (toText filter) ≠ .ok filter.normalForm := by
  intro tree filter
  have hperiod : periodTree.Finite :=
    .object (by simp [Json.Finite.string])
  have hpattern : numberPatternTree.Finite := by
    refine .object (List.forall_mem_cons.2 ⟨.string _, List.forall_mem_cons.2 ⟨.string _,
      List.forall_mem_singleton.2 (.number ?_)⟩⟩)
    decide +kernel
  have hfinite : tree.Finite := by
    refine .object (List.forall_mem_cons.2 ⟨.array ?_, List.forall_mem_singleton.2 (.string _)⟩)
    exact List.forall_mem_cons.2 ⟨hperiod, List.forall_mem_singleton.2 hpattern⟩
  have htree : ofTree tree = .ok filter := by decide +kernel
  have hsayable : period.Sayable := by
    change '/' ∉ "2020-01-01".toList
    decide
  have hunsayable : ¬numberPattern.Sayable := by
    intro h
    obtain ⟨text, htext⟩ := h (.inl rfl)
    cases htext
  have hpatternLeaf : numberPattern ∈ filter.leaves := List.mem_cons_of_mem _ List.mem_cons_self
  obtain ⟨hleaves, hwhole⟩ := tree_is_said_by_its_leaves hfinite htree
  refine ⟨hfinite, htree, (hleaves period List.mem_cons_self).2 hsayable, ?_, ?_⟩
  · exact fun h => hunsayable ((hleaves numberPattern hpatternLeaf).1 h)
  · exact fun h => hunsayable (hwhole.1 h numberPattern hpatternLeaf)

/-- A pattern that is a number is refused in query text, and a slash in the start of a period
is read as its end. -/
theorem unsayable_leaves_are_lost :
    (ofTree numberPatternTree = .ok numberPattern ∧ numberPattern ∈ numberPattern.leaves ∧
      parse (toText numberPattern) = .error ⟨11, .expected .pattern⟩) ∧
    let tree : Json :=
      .object [("from", .string "2020/02"), ("property", .string "created"),
        ("to", .string "2021"), ("type", .string "DURING")]
    let leaf : Filter := .during "created" "2020/02" "2021"
    ofTree tree = .ok leaf ∧ leaf ∈ leaf.leaves ∧
      parse (toText leaf) = .ok (.during "created" "2020" "02/2021") ∧
      parse (toText leaf) ≠ .ok leaf := by
  decide +kernel

end Cql

end CatalogSearch
