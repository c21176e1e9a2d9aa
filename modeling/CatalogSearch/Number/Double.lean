/-!
# Double precision numbers

A double is kept as its sign and its remaining sixty-three bits, read as one
natural number.  In this form the order of all doubles, infinities and the
not-a-numbers included, is the order of integers, and rounding a ratio is exact
arithmetic on natural numbers.
-/

namespace CatalogSearch

/-- A double by its sign and its exponent and fraction bits. -/
structure Double where
  negative : Bool
  magnitude : Fin (1 <<< 63)
deriving DecidableEq, Repr

namespace Double

/-- One more than the largest fraction. -/
def fractionLimit : Nat := 1 <<< 52

/-- The magnitude of infinity.  Larger magnitudes are not numbers. -/
def infinity : Nat := 2047 * fractionLimit

def isFinite (x : Double) : Bool := x.magnitude.val < infinity

/-- The double with a given magnitude, infinite when that is too large. -/
def ofMagnitude (negative : Bool) (magnitude : Nat) : Double :=
  ⟨negative, ⟨min magnitude infinity, by
    have : min magnitude infinity ≤ infinity := Nat.min_le_right _ _
    have : infinity < 1 <<< 63 := by decide
    omega⟩⟩

def zero (negative : Bool) : Double := ofMagnitude negative 0

/-- The significand and exponent: a finite double is the first times two to the
power of the second, in units of the smallest positive double. -/
def parts (x : Double) : Nat × Nat :=
  let exponent := x.magnitude.val / fractionLimit
  let fraction := x.magnitude.val % fractionLimit
  if exponent = 0 then (fraction, 0) else (fractionLimit + fraction, exponent - 1)

/-- Where a double stands among all doubles: negative ones first, and negative
zero just before zero. -/
def rank (x : Double) : Int :=
  if x.negative then -(x.magnitude.val : Int) - 1 else x.magnitude.val

/-- The total order of doubles. -/
def order (x y : Double) : Ordering := compare x.rank y.rank

/-- A quotient rounded to the nearest natural number, a half to the even one. -/
def roundDiv (numerator denominator : Nat) : Nat :=
  let quotient := numerator / denominator
  let twice := 2 * (numerator % denominator)
  if twice < denominator then quotient
  else if denominator < twice then quotient + 1
  else if quotient % 2 = 0 then quotient
  else quotient + 1

/-- The power of two that is the inverse of the smallest positive double. -/
def unitInverse : Nat := 1 <<< 1074

/-- The double nearest to a ratio of natural numbers, the even one of two. -/
def ofRatio (negative : Bool) (numerator denominator : Nat) : Double :=
  let scaled := numerator * unitInverse
  let exponent := (scaled / denominator).log2 - 52
  ofMagnitude negative
    (exponent * fractionLimit + roundDiv scaled (denominator <<< exponent))

/-- The double nearest to an integer. -/
def ofInt (value : Int) : Double := ofRatio (value < 0) value.natAbs 1

/-- The double nearest to a product. -/
def mul (x y : Double) : Double :=
  let (left, leftExponent) := x.parts
  let (right, rightExponent) := y.parts
  ofRatio (x.negative != y.negative) ((left * right) <<< (leftExponent + rightExponent))
    (unitInverse * unitInverse)

/-- The double nearest to a quotient by a number other than zero. -/
def div (x y : Double) : Double :=
  let (left, leftExponent) := x.parts
  let (right, rightExponent) := y.parts
  ofRatio (x.negative != y.negative) (left <<< leftExponent) (right <<< rightExponent)

theorem rank_injective {x y : Double} (h : x.rank = y.rank) : x = y := by
  obtain ⟨xs, xm, hx⟩ := x
  obtain ⟨ys, ym, hy⟩ := y
  cases xs <;> cases ys <;> simp [rank] at h ⊢ <;> omega

end Double

end CatalogSearch
