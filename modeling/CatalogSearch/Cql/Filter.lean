import CatalogSearch.Number.Double

/-!
# Filters

A filter is a tree of predicates on the properties of catalog records.  A group
without predicates is empty: it restricts nothing and is written as no text.
-/

namespace CatalogSearch

inductive Comparison
  | equal
  | notEqual
  | less
  | lessOrEqual
  | greater
  | greaterOrEqual
  | like
  | ilike
deriving DecidableEq, Repr

namespace Comparison

/-- The operator in query text, and the type of its nodes in saved trees. -/
def symbol : Comparison → String
  | equal => "="
  | notEqual => "<>"
  | less => "<"
  | lessOrEqual => "<="
  | greater => ">"
  | greaterOrEqual => ">="
  | like => "LIKE"
  | ilike => "ILIKE"

/-- The operator of a symbol; inequality has a second spelling. -/
def ofSymbol? (symbol : String) : Option Comparison :=
  match symbol with
  | "=" => some equal
  | "<>" => some notEqual
  | "!=" => some notEqual
  | "<" => some less
  | "<=" => some lessOrEqual
  | ">" => some greater
  | ">=" => some greaterOrEqual
  | "LIKE" => some like
  | "ILIKE" => some ilike
  | _ => none

end Comparison

/-- The right-hand side of a comparison. -/
inductive Literal
  | text (value : String)
  | number (value : Double)
  | bool (value : Bool)
deriving DecidableEq, Repr

inductive Filter
  | and (operands : List Filter)
  | or (operands : List Filter)
  | not (operand : Filter)
  | compare (property : String) (comparison : Comparison) (value : Literal)
  | between (property : String) (lower upper : Literal)
  | isNull (property : String)
  | before (property instant : String)
  | after (property instant : String)
  | during (property start finish : String)
  | intersects (property geometry : String)
  | within (property geometry : String) (distance : Double) (units : String)
deriving Inhabited

namespace Filter

mutual

/-- Equality of filters, decided operand by operand. -/
def same : Filter → Filter → Bool
  | and left, and right => sameAll left right
  | or left, or right => sameAll left right
  | not left, not right => same left right
  | compare p c v, compare p' c' v' => p == p' && c == c' && v == v'
  | between p l u, between p' l' u' => p == p' && l == l' && u == u'
  | isNull p, isNull p' => p == p'
  | before p i, before p' i' => p == p' && i == i'
  | after p i, after p' i' => p == p' && i == i'
  | during p s f, during p' s' f' => p == p' && s == s' && f == f'
  | intersects p g, intersects p' g' => p == p' && g == g'
  | within p g d u, within p' g' d' u' => p == p' && g == g' && d == d' && u == u'
  | _, _ => false

def sameAll : List Filter → List Filter → Bool
  | [], [] => true
  | left :: lefts, right :: rights => same left right && sameAll lefts rights
  | _, _ => false

end

mutual

theorem same_eq_true_iff : ∀ left right : Filter, same left right = true ↔ left = right
  | and operands, right => by
    cases right <;> simp [same, sameAll_eq_true_iff operands]
  | or operands, right => by
    cases right <;> simp [same, sameAll_eq_true_iff operands]
  | not operand, right => by
    cases right <;> simp [same, same_eq_true_iff operand]
  | compare .., right => by cases right <;> simp [same, and_assoc]
  | between .., right => by cases right <;> simp [same, and_assoc]
  | isNull .., right => by cases right <;> simp [same]
  | before .., right => by cases right <;> simp [same]
  | after .., right => by cases right <;> simp [same]
  | during .., right => by cases right <;> simp [same, and_assoc]
  | intersects .., right => by cases right <;> simp [same]
  | within .., right => by cases right <;> simp [same, and_assoc]

theorem sameAll_eq_true_iff :
    ∀ lefts rights : List Filter, sameAll lefts rights = true ↔ lefts = rights
  | [], rights => by cases rights <;> simp [sameAll]
  | left :: lefts, rights => by
    cases rights <;> simp [sameAll, same_eq_true_iff left, sameAll_eq_true_iff lefts]

end

instance : DecidableEq Filter := fun left right =>
  decidable_of_iff _ (same_eq_true_iff left right)

mutual

/-- Whether a filter holds no predicate. -/
def isEmpty : Filter → Bool
  | and operands => allEmpty operands
  | or operands => allEmpty operands
  | not operand => isEmpty operand
  | _ => false

def allEmpty : List Filter → Bool
  | [] => true
  | operand :: operands => isEmpty operand && allEmpty operands

end

theorem allEmpty_eq_all (operands : List Filter) : allEmpty operands = operands.all isEmpty := by
  induction operands with
  | nil => rfl
  | cons operand operands ih => simp [allEmpty, ih]

/-- The conjunction of two filters, each kept as one operand.  An empty one adds
nothing. -/
def both (left right : Filter) : Filter :=
  if left.isEmpty then right else if right.isEmpty then left else and [left, right]

/-- A comparison that ignores case, with wildcards in its pattern. -/
def matching (property pattern : String) : Filter := compare property .ilike (.text pattern)

def equals (property : String) (value : Literal) : Filter := compare property .equal value

/-- The filter of a new query: any text at all. -/
def anyText : Filter := matching "anyText" ""

end Filter

end CatalogSearch
