import CatalogSearch.Proofs.Cql.Lossless
import CatalogSearch.Proofs.Cql.Restricting
import CatalogSearch.Proofs.Cql.Stored

/-!
# Narrowed query text

The cache is asked for the records of some sites only, so the text that the sites are
asked is read, narrowed and written once more.  A tree nests so little that this stays
within the limit, also after a restriction to a tag, and what was read is kept as it is.
-/

namespace CatalogSearch

/-! ## Numbers of trees -/

/-- A value with finite numbers only, as structured documents hold: a numeral out of range
makes a text unreadable, and what is not finite is written as null. -/
inductive Json.Finite : Json → Prop
  | null : Finite null
  | bool (value : Bool) : Finite (bool value)
  | number {value : Number} (h : value.toDouble.isFinite = true) : Finite (number value)
  | string (value : String) : Finite (string value)
  | array {items : List Json} (h : ∀ item ∈ items, Finite item) : Finite (array items)
  | object {fields : List (String × Json)} (h : ∀ field ∈ fields, Finite field.2) :
      Finite (object fields)

theorem Literal.isFinite_iff {value : Literal} :
    value.IsFinite ↔ ∀ x ∈ value.numbers, x.isFinite = true := by
  cases value <;> simp [Literal.IsFinite, Literal.numbers]

namespace Filter

variable {filter leaf : Filter} {operands : List Filter}

/-- Whether query text can say what a leaf says, whatever its numbers are. -/
def Sayable : Filter → Prop
  | compare _ comparison value =>
    comparison = .like ∨ comparison = .ilike → ∃ text, value = .text text
  | during _ start _ => '/' ∉ start.toList
  | intersects _ geometry => Cql.IsGeometry geometry
  | within _ geometry _ units => Cql.IsGeometry geometry ∧ Cql.IsUnit units
  | _ => True

theorem Sayable.expressible (h : leaf.Sayable) (hnumbers : ∀ x ∈ leaf.numbers, x.isFinite = true) :
    leaf.Expressible := by
  cases leaf with
  | compare property comparison value => exact ⟨Literal.isFinite_iff.2 hnumbers, h⟩
  | between property lower upper =>
    obtain ⟨hlower, hupper⟩ := List.forall_mem_append.1 hnumbers
    exact ⟨Literal.isFinite_iff.2 hlower, Literal.isFinite_iff.2 hupper⟩
  | within property geometry distance units =>
    exact ⟨h.1, hnumbers distance List.mem_cons_self, h.2⟩
  | _ => exact h

theorem leaves_of_isLeaf (h : filter.isLeaf = true) : filter.leaves = [filter] := by
  cases filter <;> first | rfl | cases h

theorem exists_of_mem_allLeaves (h : leaf ∈ allLeaves operands) :
    ∃ operand ∈ operands, leaf ∈ operand.leaves := by
  rw [allLeaves_eq_flatMap] at h
  exact List.mem_flatMap.1 h

end Filter

namespace Cql

namespace Tree

variable {node : Node} {path field : String}

theorem finite_of_find? (hnode : (Json.object node).Finite) {value : Json}
    (h : Table.find? field node = some value) : value.Finite := by
  cases hnode with
  | object hfields => exact hfields _ (Table.mem_of_find? h)

theorem finite_of_literal (hnode : (Json.object node).Finite) {value : Literal}
    (h : literal node path field = .ok value) : ∀ x ∈ value.numbers, x.isFinite = true := by
  unfold literal at h
  split at h <;> cases h
  · nofun
  · nofun
  · rename_i hfind
    cases finite_of_find? hnode hfind with
    | number hfinite => exact List.forall_mem_singleton.2 hfinite

theorem finite_of_within (hnode : (Json.object node).Finite) {filter : Filter}
    (h : within node path = .ok filter) : ∀ x ∈ filter.numbers, x.isFinite = true := by
  unfold within at h
  split at h
  · cases h
  · rename_i distance hdistance
    obtain ⟨name, -, h⟩ := bind_eq_ok h
    obtain ⟨geometry, -, h⟩ := bind_eq_ok h
    cases h
    obtain ⟨value, hfind, hvalue⟩ := Option.bind_eq_some_iff.1 hdistance
    cases finite_of_find? hnode hfind with
    | number hfinite =>
      cases hvalue
      exact List.forall_mem_singleton.2 hfinite
    | _ => cases hvalue

theorem finite_of_leaf (hnode : (Json.object node).Finite) {type : String} {filter : Filter}
    (h : leaf node path type = .ok filter) : ∀ x ∈ filter.numbers, x.isFinite = true := by
  unfold leaf at h
  split at h
  · obtain ⟨name, -, h⟩ := bind_eq_ok h
    obtain ⟨lower, hlower, h⟩ := bind_eq_ok h
    obtain ⟨upper, hupper, h⟩ := bind_eq_ok h
    cases h
    exact List.forall_mem_append.2 ⟨finite_of_literal hnode hlower, finite_of_literal hnode hupper⟩
  · obtain ⟨name, -, rfl⟩ := map_eq_ok h
    nofun
  · obtain ⟨name, -, h⟩ := bind_eq_ok h
    obtain ⟨value, -, rfl⟩ := map_eq_ok h
    nofun
  · obtain ⟨name, -, h⟩ := bind_eq_ok h
    obtain ⟨value, -, rfl⟩ := map_eq_ok h
    nofun
  · obtain ⟨name, -, h⟩ := bind_eq_ok h
    obtain ⟨start, -, h⟩ := bind_eq_ok h
    obtain ⟨value, -, rfl⟩ := map_eq_ok h
    nofun
  · obtain ⟨name, -, h⟩ := bind_eq_ok h
    obtain ⟨value, -, rfl⟩ := map_eq_ok h
    nofun
  · exact finite_of_within hnode h
  · split at h
    · cases h
    · obtain ⟨value, hvalue, h⟩ := bind_eq_ok h
      obtain ⟨name, -, rfl⟩ := map_eq_ok h
      exact finite_of_literal hnode hvalue

/-- The numbers of what a tree is read as are those of the tree. -/
theorem finite_of_filter {levels : Nat} {value : Json} {filter : Filter} (hvalue : value.Finite)
    (h : Tree.filter levels path value = .ok filter) :
    ∀ leaf ∈ filter.leaves, ∀ x ∈ leaf.numbers, x.isFinite = true := by
  induction levels generalizing path value filter with
  | zero => cases h
  | succ levels ih =>
    obtain ⟨node, rfl, ⟨filters, hfilters, hfilter⟩ | ⟨type, hleaf⟩⟩ := cases_of_filter h
    · have hall : ∀ leaf ∈ Filter.allLeaves filters, ∀ x ∈ leaf.numbers, x.isFinite = true := by
        intro leaf hmem
        obtain ⟨operand, hoperand, hmem⟩ := Filter.exists_of_mem_allLeaves hmem
        obtain ⟨items, hitems, place, item, hitem, hread⟩ :=
          exists_of_mem_operands hfilters hoperand
        cases finite_of_find? hvalue hitems with
        | array hfinite => exact ih (hfinite item hitem) hread leaf hmem
      obtain rfl | rfl | ⟨child, rfl, rfl⟩ := hfilter
      · exact hall
      · exact hall
      · intro leaf hmem
        exact hall leaf (List.mem_append_left _ hmem)
    · intro leaf hmem
      rw [Filter.leaves_of_isLeaf (isLeaf_of_leaf hleaf), List.mem_singleton] at hmem
      rw [hmem]
      exact finite_of_leaf hvalue hleaf

end Tree

theorem expressible_of_ofTree {value : Json} {filter : Filter} (hvalue : value.Finite)
    (htree : ofTree value = .ok filter) (hleaves : ∀ leaf ∈ filter.leaves, leaf.Sayable) :
    ∀ leaf ∈ filter.leaves, leaf.Expressible := by
  intro leaf hleaf
  exact (hleaves leaf hleaf).expressible (Tree.finite_of_filter hvalue htree leaf hleaf)

/-! ## Narrowing -/

/-- The normal form of what query text can say is written and read without any change. -/
theorem faithful_normalForm {filter : Filter} (hempty : filter.isEmpty = false)
    (hleaves : ∀ leaf ∈ filter.leaves, leaf.Expressible) : filter.normalForm.Faithful := by
  obtain ⟨made, htokens, hmade⟩ := exists_tokens_toText hleaves hempty
  have hderived := (hmade _).2 (Nat.le_refl _)
  exact Grammar.faithful_of_expression ⟨_, _, htokens⟩ hderived

end Cql

namespace Request

/-- The predicate of the records that come from one of some sites. -/
def comesFrom (sites : List String) : Filter :=
  .joined .or (sites.map fun id => .equals originProperty (.text id))

variable {sites : List String}

theorem normalForm_restriction (sites : List String) :
    (restriction sites).normalForm = comesFrom sites := by
  have hforms : Filter.normalForms (sites.map fun id => .equals originProperty (.text id)) =
      sites.map fun id => .equals originProperty (.text id) := by
    induction sites with
    | nil => rfl
    | cons id sites ih =>
      rw [List.map_cons, Filter.normalForms, ih]
      rfl
  rw [restriction, Filter.normalForm, hforms, comesFrom]

theorem conjoinable_restriction (h : sites ≠ []) : (restriction sites).Conjoinable := by
  have hleaf : ∀ operand ∈ sites.map fun id => Filter.equals originProperty (.text id),
      ∃ id, operand = .equals originProperty (.text id) := by
    intro operand hoperand
    obtain ⟨id, -, rfl⟩ := List.mem_map.1 hoperand
    exact ⟨id, rfl⟩
  constructor
  · cases sites with
    | nil => exact absurd rfl h
    | cons id sites => rfl
  · intro leaf hmem
    obtain ⟨operand, hoperand, hmem⟩ := Filter.exists_of_mem_allLeaves hmem
    obtain ⟨id, rfl⟩ := hleaf operand hoperand
    rw [List.mem_singleton.1 hmem]
    exact ⟨trivial, by simp⟩
  · have hnesting : (restriction sites).normalForm.nesting ≤ 1 := by
      refine (Filter.nesting_group_le fun operand hoperand => ?_).2
      obtain ⟨id, rfl⟩ := hleaf operand hoperand
      exact Nat.one_pos
    exact Nat.lt_of_le_of_lt hnesting (by decide)

/-- The text of a filter, narrowed to some sites, is read as the filter and the origin. -/
theorem parse_narrow_toText {filter : Filter} (hfilter : filter.Conjoinable) (hsites : sites ≠ []) :
    Cql.parse (narrow (Cql.toText filter) sites) =
      .ok (.and [filter.normalForm, comesFrom sites]) := by
  have hfaithful := Cql.faithful_normalForm hfilter.nonempty hfilter.expressible
  have hread : filter.normalForm.Conjoinable :=
    ⟨hfaithful.nonempty, hfaithful.expressible, hfaithful.normal.symm ▸ hfilter.nesting⟩
  have hboth := Cql.parse_both hread (conjoinable_restriction hsites)
  rw [hfaithful.normal, normalForm_restriction] at hboth
  rw [narrow, Cql.parse_of_conjoinable hfilter]
  exact hboth

end Request

end CatalogSearch
