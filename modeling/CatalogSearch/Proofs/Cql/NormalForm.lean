import CatalogSearch.Proofs.Cql.Verbatim

/-!
# Filters as they are written

Empty operands are not written, and neither is a group around one operand.  What is
left of a filter is its normal form, and it tells how deep the text of the filter is
nested.
-/

namespace CatalogSearch

namespace Filter

/-! ## Normal forms -/

/-- Some filters as one group, unless there is just one of them. -/
def joined (join : List Filter → Filter) : List Filter → Filter
  | [] => and []
  | [operand] => operand
  | operands => join operands

mutual

/-- The filter without its empty operands and without groups around one operand. -/
def normalForm : Filter → Filter
  | and operands => joined and (normalForms operands)
  | or operands => joined or (normalForms operands)
  | not operand => if isEmpty operand then and [] else not (normalForm operand)
  | filter => filter

/-- The normal forms of the operands that are not empty. -/
def normalForms : List Filter → List Filter
  | [] => []
  | operand :: operands =>
    if isEmpty operand then normalForms operands
    else normalForm operand :: normalForms operands

end

def isGroup : Filter → Bool
  | and _ => true
  | or _ => true
  | _ => false

/-! ## Nesting -/

mutual

/-- The nesting in the text of a filter in normal form: a negation is written with a
keyword and parentheses, a group inside a group with parentheses. -/
def nesting : Filter → Nat
  | and operands => operandsNesting operands
  | or operands => operandsNesting operands
  | not operand => nesting operand + 2
  | _ => 0

/-- The nesting in the texts of operands. -/
def operandsNesting : List Filter → Nat
  | [] => 0
  | operand :: operands =>
    max (nesting operand + if isGroup operand then 1 else 0) (operandsNesting operands)

end

/-! ## Leaves -/

mutual

/-- The filters in a tree that are not made of other filters. -/
def leaves : Filter → List Filter
  | and operands => allLeaves operands
  | or operands => allLeaves operands
  | not operand => leaves operand
  | filter => [filter]

def allLeaves : List Filter → List Filter
  | [] => []
  | operand :: operands => leaves operand ++ allLeaves operands

end

/-- Whether query text can say what a leaf says. -/
def Expressible : Filter → Prop
  | compare _ comparison value =>
    value.IsFinite ∧
      (comparison = .like ∨ comparison = .ilike → ∃ text, value = .text text)
  | between _ lower upper => lower.IsFinite ∧ upper.IsFinite
  | during _ start _ => '/' ∉ start.toList
  | intersects _ geometry => Cql.IsGeometry geometry
  | within _ geometry distance units =>
    Cql.IsGeometry geometry ∧ distance.isFinite = true ∧ Cql.IsUnit units
  | _ => True

/-! ## Empty filters -/

/-- An empty filter is left with nothing. -/
theorem normalForms_of_allEmpty : ∀ {operands : List Filter}, allEmpty operands = true →
    normalForms operands = []
  | [], _ => rfl
  | operand :: operands, h => by
    rw [allEmpty, Bool.and_eq_true] at h
    rw [normalForms, if_pos h.1, normalForms_of_allEmpty h.2]

theorem normalForm_of_isEmpty {filter : Filter} (h : filter.isEmpty = true) :
    filter.normalForm = and [] := by
  cases filter with
  | and operands => rw [normalForm, normalForms_of_allEmpty h, joined]
  | or operands => rw [normalForm, normalForms_of_allEmpty h, joined]
  | not operand =>
    rw [isEmpty] at h
    rw [normalForm, if_pos h]
  | _ => cases h

end Filter

end CatalogSearch
