import CatalogSearch.Cql.Tree
import CatalogSearch.Proofs.Cql.RoundTrip
import CatalogSearch.Session.Searching

/-!
# Restricted filters in query text

A filter restricted to a tag is sent as text, so the restriction holds for what the
text is read as.  Text of a filter that query text can say is read as a conjunction
with the tag, and trees are never nested too deeply for that.
-/

namespace CatalogSearch

namespace Filter

/-! ## Which records match -/

mutual

/-- Whether a record matches, of which it is known which leaves it matches. -/
def holds (verdict : Filter → Bool) : Filter → Bool
  | and operands => holdsAll verdict operands
  | or operands => holdsAny verdict operands
  | not operand => !holds verdict operand
  | leaf => verdict leaf

def holdsAll (verdict : Filter → Bool) : List Filter → Bool
  | [] => true
  | operand :: operands => holds verdict operand && holdsAll verdict operands

def holdsAny (verdict : Filter → Bool) : List Filter → Bool
  | [] => false
  | operand :: operands => holds verdict operand || holdsAny verdict operands

end

theorem holds_of_holds_and {verdict : Filter → Bool} {operands : List Filter}
    (h : (and operands).holds verdict = true) {operand : Filter} (hoperand : operand ∈ operands) :
    operand.holds verdict = true := by
  rw [holds] at h
  induction operands with
  | nil => cases hoperand
  | cons first operands ih =>
    rw [holdsAll, Bool.and_eq_true] at h
    obtain rfl | hoperand := List.mem_cons.1 hoperand
    · exact h.1
    · exact ih h.2 hoperand

/-! ## Nesting of normal forms -/

theorem operandsNesting_le {operands : List Filter} {bound : Nat}
    (h : ∀ operand ∈ operands, operand.nesting < bound) : operandsNesting operands ≤ bound := by
  induction operands with
  | nil => exact Nat.zero_le _
  | cons operand operands ih =>
    have hfirst := h operand List.mem_cons_self
    have hrest := ih fun other hother => h other (List.mem_cons_of_mem _ hother)
    rw [operandsNesting, Nat.max_le]
    refine ⟨?_, hrest⟩
    split <;> omega

theorem nesting_joined_le (join : List Filter → Filter)
    (hjoin : ∀ operands, (join operands).nesting = operandsNesting operands)
    {operands : List Filter} {bound : Nat} (h : ∀ operand ∈ operands, operand.nesting < bound) :
    (joined join operands).nesting ≤ bound := by
  unfold joined
  split
  · exact Nat.zero_le _
  · exact Nat.le_of_lt (h _ (List.mem_singleton_self _))
  · rw [hjoin]
    exact operandsNesting_le h

theorem exists_of_mem_normalForms {operands : List Filter} {form : Filter}
    (h : form ∈ normalForms operands) : ∃ operand ∈ operands, form = operand.normalForm := by
  induction operands with
  | nil => cases h
  | cons operand operands ih =>
    rw [normalForms] at h
    split at h
    · obtain ⟨other, hother, hform⟩ := ih h
      exact ⟨other, List.mem_cons_of_mem _ hother, hform⟩
    · obtain rfl | h := List.mem_cons.1 h
      · exact ⟨operand, List.mem_cons_self, rfl⟩
      · obtain ⟨other, hother, hform⟩ := ih h
        exact ⟨other, List.mem_cons_of_mem _ hother, hform⟩

/-- A group may be nested one level deeper than its operands. -/
theorem nesting_group_le {operands : List Filter} {bound : Nat}
    (h : ∀ operand ∈ operands, operand.normalForm.nesting < bound) :
    (and operands).normalForm.nesting ≤ bound ∧ (or operands).normalForm.nesting ≤ bound := by
  have hforms : ∀ form ∈ normalForms operands, form.nesting < bound := by
    intro form hform
    obtain ⟨operand, hoperand, rfl⟩ := exists_of_mem_normalForms hform
    exact h operand hoperand
  constructor
  · exact nesting_joined_le and (fun _ => rfl) hforms
  · exact nesting_joined_le or (fun _ => rfl) hforms

theorem nesting_not_le (operand : Filter) :
    (not operand).normalForm.nesting ≤ operand.normalForm.nesting + 2 := by
  rw [normalForm]
  split
  · exact Nat.zero_le _
  · exact Nat.le_refl _

/-- Whether a filter is not made of other filters. -/
def isLeaf : Filter → Bool
  | and _ | or _ | not _ => false
  | _ => true

theorem nesting_of_isLeaf {filter : Filter} (h : filter.isLeaf = true) :
    filter.normalForm.nesting = 0 := by
  cases filter <;> first | rfl | cases h

end Filter

namespace Cql

/-! ## Filters of trees -/

namespace Tree

theorem isLeaf_of_leaf {node : Node} {path type : String} {filter : Filter}
    (h : leaf node path type = .ok filter) : filter.isLeaf = true := by
  unfold leaf at h
  split at h
  · obtain ⟨name, -, h⟩ := bind_eq_ok h
    obtain ⟨lower, -, h⟩ := bind_eq_ok h
    obtain ⟨upper, -, h⟩ := bind_eq_ok h
    cases h
    rfl
  · obtain ⟨name, -, rfl⟩ := map_eq_ok h
    rfl
  · obtain ⟨name, -, h⟩ := bind_eq_ok h
    obtain ⟨value, -, rfl⟩ := map_eq_ok h
    rfl
  · obtain ⟨name, -, h⟩ := bind_eq_ok h
    obtain ⟨value, -, rfl⟩ := map_eq_ok h
    rfl
  · obtain ⟨name, -, h⟩ := bind_eq_ok h
    obtain ⟨start, -, h⟩ := bind_eq_ok h
    obtain ⟨value, -, rfl⟩ := map_eq_ok h
    rfl
  · obtain ⟨name, -, h⟩ := bind_eq_ok h
    obtain ⟨value, -, rfl⟩ := map_eq_ok h
    rfl
  · unfold within at h
    split at h
    · cases h
    · obtain ⟨name, -, h⟩ := bind_eq_ok h
      obtain ⟨geometry, -, h⟩ := bind_eq_ok h
      cases h
      rfl
  · split at h
    · cases h
    · obtain ⟨value, -, h⟩ := bind_eq_ok h
      obtain ⟨name, -, rfl⟩ := map_eq_ok h
      rfl

theorem exists_of_mem_children {read : String → Json → Except TreeError Filter} {path : String}
    {index : Nat} {items : List Json} {filters : List Filter}
    (h : children read path index items = .ok filters) {filter : Filter}
    (hfilter : filter ∈ filters) : ∃ place, ∃ item ∈ items, read place item = .ok filter := by
  induction items generalizing index filters with
  | nil =>
    cases h
    cases hfilter
  | cons item items ih =>
    obtain ⟨first, hfirst, h⟩ := bind_eq_ok h
    obtain ⟨more, hmore, h⟩ := bind_eq_ok h
    cases h
    obtain rfl | hfilter := List.mem_cons.1 hfilter
    · exact ⟨_, item, List.mem_cons_self, hfirst⟩
    · obtain ⟨place, other, hother, hread⟩ := ih hmore hfilter
      exact ⟨place, other, List.mem_cons_of_mem _ hother, hread⟩

/-- An operand is read from one of the children of its node. -/
theorem exists_of_mem_operands {read : String → Json → Except TreeError Filter} {node : Node}
    {path : String} {filters : List Filter} (h : operands read node path = .ok filters)
    {filter : Filter} (hfilter : filter ∈ filters) :
    ∃ items, Table.find? "filters" node = some (.array items) ∧
      ∃ place, ∃ item ∈ items, read place item = .ok filter := by
  rw [operands] at h
  split at h
  · rename_i items hitems
    exact ⟨items, hitems, exists_of_mem_children h hfilter⟩
  · cases h

/-- What a tree is read as: a group, a negation or a leaf. -/
theorem cases_of_filter {levels : Nat} {path : String} {value : Json} {filter : Filter}
    (h : Tree.filter (levels + 1) path value = .ok filter) :
    ∃ node, value = .object node ∧
      ((∃ filters, operands (Tree.filter levels) node path = .ok filters ∧
        (filter = .and filters ∨ filter = .or filters ∨
          ∃ child, filters = [child] ∧ filter = .not child)) ∨
        ∃ type, leaf node path type = .ok filter) := by
  unfold Tree.filter at h
  split at h
  · rename_i node
    refine ⟨node, rfl, ?_⟩
    split at h
    · split at h
      · obtain ⟨filters, hfilters, rfl⟩ := map_eq_ok h
        exact .inl ⟨filters, hfilters, .inl rfl⟩
      · obtain ⟨filters, hfilters, rfl⟩ := map_eq_ok h
        exact .inl ⟨filters, hfilters, .inr (.inl rfl)⟩
      · obtain ⟨filters, hfilters, h⟩ := bind_eq_ok h
        split at h
        · rename_i child
          cases h
          exact .inl ⟨[child], hfilters, .inr (.inr ⟨child, rfl, rfl⟩)⟩
        · cases h
      · exact .inr ⟨_, h⟩
    · cases h
  · cases h

/-- What a tree of some levels is read as can be written with two levels of nesting for
each level of the tree but the last. -/
theorem nesting_of_filter {levels : Nat} {path : String} {value : Json} {filter : Filter}
    (h : Tree.filter levels path value = .ok filter) :
    filter.normalForm.nesting + 2 ≤ 2 * levels := by
  induction levels generalizing path value filter with
  | zero => cases h
  | succ levels ih =>
    obtain ⟨node, -, ⟨filters, hfilters, hfilter⟩ | ⟨type, hleaf⟩⟩ := cases_of_filter h
    · have hoperands : ∀ operand ∈ filters, operand.normalForm.nesting + 2 ≤ 2 * levels := by
        intro operand hmem
        obtain ⟨items, -, place, item, -, hitem⟩ := exists_of_mem_operands hfilters hmem
        exact ih hitem
      have hgroup : (Filter.and filters).normalForm.nesting ≤ 2 * levels ∧
          (Filter.or filters).normalForm.nesting ≤ 2 * levels := by
        apply Filter.nesting_group_le
        intro operand hmem
        have := hoperands operand hmem
        omega
      obtain rfl | rfl | ⟨child, rfl, rfl⟩ := hfilter
      · omega
      · omega
      · have hchild := hoperands child (List.mem_singleton_self _)
        have := Filter.nesting_not_le child
        omega
    · have := Filter.nesting_of_isLeaf (isLeaf_of_leaf hleaf)
      omega

end Tree

end Cql

/-! ## Conjunctions -/

namespace Filter

/-- Query text can say the filter as an operand of a conjunction. -/
structure Conjoinable (filter : Filter) : Prop where
  nonempty : filter.isEmpty = false
  expressible : ∀ leaf ∈ filter.leaves, leaf.Expressible
  nesting : filter.normalForm.nesting < Cql.nestingLimit

variable {left right : Filter}

theorem both_eq (hleft : left.isEmpty = false) (hright : right.isEmpty = false) :
    left.both right = and [left, right] := by
  rw [both, hleft, hright]
  rfl

theorem normalForm_both (hleft : left.isEmpty = false) (hright : right.isEmpty = false) :
    (left.both right).normalForm = and [left.normalForm, right.normalForm] := by
  rw [both_eq hleft hright, normalForm, normalForms, if_neg (by simp [hleft]), normalForms,
    if_neg (by simp [hright])]
  rfl

theorem isEmpty_both (hleft : left.isEmpty = false) (hright : right.isEmpty = false) :
    (left.both right).isEmpty = false := by
  rw [both_eq hleft hright, isEmpty, allEmpty, hleft]
  rfl

theorem nesting_both_le (hleft : left.isEmpty = false) (hright : right.isEmpty = false)
    {bound : Nat} (hleftBound : left.normalForm.nesting < bound)
    (hrightBound : right.normalForm.nesting < bound) :
    (left.both right).normalForm.nesting ≤ bound := by
  rw [normalForm_both hleft hright]
  apply operandsNesting_le
  exact List.forall_mem_cons.2 ⟨hleftBound, List.forall_mem_singleton.2 hrightBound⟩

theorem Conjoinable.expressible_both (hleft : left.Conjoinable) (hright : right.Conjoinable) :
    ∀ leaf ∈ (left.both right).leaves, leaf.Expressible := by
  intro leaf hleaf
  rw [both_eq hleft.nonempty hright.nonempty, leaves, allLeaves, allLeaves, allLeaves,
    List.append_nil, List.mem_append] at hleaf
  exact hleaf.elim (hleft.expressible leaf) (hright.expressible leaf)

/-- A conjunction takes one more level. -/
theorem Conjoinable.both (hleft : left.Conjoinable) (hright : right.Conjoinable)
    (hleftDeep : left.normalForm.nesting + 1 < Cql.nestingLimit)
    (hrightDeep : right.normalForm.nesting + 1 < Cql.nestingLimit) :
    (left.both right).Conjoinable := by
  refine ⟨isEmpty_both hleft.nonempty hright.nonempty, hleft.expressible_both hright, ?_⟩
  have hnesting := nesting_both_le hleft.nonempty hright.nonempty
    (Nat.lt_sub_of_add_lt hleftDeep) (Nat.lt_sub_of_add_lt hrightDeep)
  exact Nat.lt_of_le_of_lt hnesting (by decide)

/-- The predicate of the records that carry a tag. -/
def carries (tag : String) : Filter := matching "metacard-tags" tag

theorem conjoinable_carries (tag : String) : (carries tag).Conjoinable := by
  refine ⟨rfl, fun leaf hleaf => ?_, Nat.succ_pos _⟩
  rw [List.mem_singleton.1 hleaf]
  exact ⟨trivial, fun _ => ⟨tag, rfl⟩⟩

end Filter

namespace Cql

theorem parse_of_conjoinable {filter : Filter} (h : filter.Conjoinable) :
    parse (toText filter) = .ok filter.normalForm :=
  parse_toText h.expressible (Nat.le_of_lt h.nesting)

/-- The text of a conjunction is read as a conjunction of the normal forms. -/
theorem parse_both {left right : Filter} (hleft : left.Conjoinable) (hright : right.Conjoinable) :
    parse (toText (left.both right)) = .ok (.and [left.normalForm, right.normalForm]) := by
  rw [parse_toText (hleft.expressible_both hright)
    (Filter.nesting_both_le hleft.nonempty hright.nonempty hleft.nesting hright.nesting),
    Filter.normalForm_both hleft.nonempty hright.nonempty]

/-- The text of a restricted filter is read as a conjunction with the tag. -/
theorem parse_tagged {filter : Filter} (hempty : filter.isEmpty = false)
    (hleaves : ∀ leaf ∈ filter.leaves, leaf.Expressible)
    (hnesting : filter.normalForm.nesting < nestingLimit) (tag : String) :
    parse (toText (filter.tagged tag)) = .ok (.and [filter.normalForm, .carries tag]) :=
  parse_both ⟨hempty, hleaves, hnesting⟩ (Filter.conjoinable_carries tag)

end Cql

end CatalogSearch
