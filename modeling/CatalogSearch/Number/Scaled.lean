import CatalogSearch.Number.Decimal

/-!
# Scaled numerals

A numeral in a structured document is read in two roundings: as many of its
digits as fit into sixty-four bits become a double, which is then multiplied or
divided by the double of a power of ten.  Numerals of up to fifteen digits with a
small exponent come out exact.
-/

namespace CatalogSearch

namespace Double

/-- The double nearest to a power of ten. -/
def powerOfTen (exponent : Nat) : Double := Decimal.toDouble false ⟨1, exponent⟩

/-- The largest exponent of ten whose power is finite. -/
def largestPower : Nat := 308

/-- A double divided by a power of ten, in steps of the largest finite power. -/
def shrink (x : Double) (exponent : Nat) : Nat → Double
  | 0 => zero x.negative
  | fuel + 1 =>
    if exponent ≤ largestPower then x.div (powerOfTen exponent)
    else if x.magnitude.val = 0 then x
    else shrink (x.div (powerOfTen largestPower)) (exponent - largestPower) fuel

/-- A double multiplied by a power of ten, if that stays finite. -/
def grow? (x : Double) (exponent : Nat) : Option Double :=
  if exponent ≤ largestPower then
    let product := x.mul (powerOfTen exponent)
    if product.isFinite then some product else none
  else if x.magnitude.val = 0 then some x
  else none

/-- The double that a numeral with a given sign, significand and exponent of ten
stands for, if it is in range.  Four divisions take every double to zero. -/
def ofScaled? (negative : Bool) (significand : Nat) (exponent : Int) : Option Double :=
  let x := ofRatio negative significand 1
  if 0 ≤ exponent then x.grow? exponent.toNat else some (x.shrink (-exponent).toNat 4)

end Double

/-- Digits read into a number of at most sixty-four bits.  The second component
counts the digits taken, which end before the first that does not fit. -/
def readDigits (significand : Nat) : List Char → Nat × Nat
  | [] => (significand, 0)
  | c :: rest =>
    let next := 10 * significand + (c.toNat - '0'.toNat)
    if next < UInt64.size then
      let (value, taken) := readDigits next rest
      (value, taken + 1)
    else (significand, 0)

end CatalogSearch
