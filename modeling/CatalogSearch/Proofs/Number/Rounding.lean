import CatalogSearch.Number.Decimal
import Mathlib.Algebra.Order.Ring.Nat
import Mathlib.Tactic.Linarith
import Mathlib.Tactic.Ring

/-!
# Ratios that round to a double

A ratio of natural numbers within the neighbourhood of a finite double rounds to that
double.  Below a power of two the neighbourhood reaches only half as far, and there a
ratio is rounded with the exponent below.
-/

namespace CatalogSearch.Double

/-! ## Rounding quotients -/

/-- A quotient no more than half away from a number rounds to it; just half away it
does if the number is even. -/
theorem roundDiv_eq {numerator denominator quotient : Nat} (hpositive : 0 < denominator)
    (hlow : 2 * quotient * denominator ≤ 2 * numerator + denominator)
    (hhigh : 2 * numerator ≤ 2 * quotient * denominator + denominator)
    (hodd : quotient % 2 = 1 → 2 * quotient * denominator < 2 * numerator + denominator ∧
      2 * numerator < 2 * quotient * denominator + denominator) :
    roundDiv numerator denominator = quotient := by
  have hdivide := Nat.div_add_mod numerator denominator
  have hremainder := Nat.mod_lt numerator hpositive
  unfold roundDiv
  generalize numerator / denominator = below at hdivide ⊢
  generalize numerator % denominator = remainder at hdivide hremainder ⊢
  -- Only the number below the quotient and the next one are near enough.
  have hnear : quotient = below ∨ quotient = below + 1 := by
    have hle : quotient ≤ below + 1 := by
      by_contra hgt
      have := Nat.mul_le_mul_right denominator (show below + 2 ≤ quotient by omega)
      nlinarith
    have hge : below ≤ quotient := by
      by_contra hlt
      have := Nat.mul_le_mul_right denominator (show quotient + 1 ≤ below by omega)
      nlinarith
    omega
  obtain rfl | rfl := hnear
  · have htwice : 2 * remainder ≤ denominator := by nlinarith
    have hstrict : quotient % 2 = 1 → 2 * remainder < denominator := by
      intro h
      nlinarith [(hodd h).2]
    simp only
    split_ifs <;> omega
  · have htwice : denominator ≤ 2 * remainder := by nlinarith
    have hstrict : (below + 1) % 2 = 1 → denominator < 2 * remainder := by
      intro h
      nlinarith [(hodd h).1]
    simp only
    split_ifs <;> omega

/-! ## Significands and exponents -/

theorem fractionLimit_eq : fractionLimit = 2 ^ 52 := rfl

theorem unitInverse_eq : unitInverse = 2 ^ 1074 := by
  rw [unitInverse, Nat.shiftLeft_eq, Nat.one_mul]

/-- A magnitude in terms of the significand and the exponent. -/
theorem magnitude_eq (x : Double) :
    x.magnitude.val = x.parts.2 * fractionLimit + x.parts.1 ∧ x.parts.1 < 2 * fractionLimit ∧
      (x.parts.2 = 0 ∨ fractionLimit ≤ x.parts.1) := by
  have hdivide := Nat.div_add_mod x.magnitude.val fractionLimit
  have hremainder := Nat.mod_lt x.magnitude.val (show 0 < fractionLimit by decide)
  unfold parts
  rw [fractionLimit_eq] at *
  dsimp only
  split_ifs with h <;> dsimp only <;> omega

/-- The exponent of a quotient in the range of one power of two. -/
theorem log2_sub_eq {quotient exponent : Nat}
    (hlow : exponent = 0 ∨ 2 ^ (52 + exponent) ≤ quotient)
    (hhigh : quotient < 2 ^ (53 + exponent)) : quotient.log2 - 52 = exponent := by
  by_cases hzero : quotient = 0
  · subst hzero
    have : 0 < 2 ^ (52 + exponent) := Nat.two_pow_pos _
    have hlog : Nat.log2 0 = 0 := rfl
    omega
  · have hlt := (Nat.log2_lt hzero).2 hhigh
    have hle : exponent = 0 ∨ 52 + exponent ≤ quotient.log2 := hlow.imp_right (Nat.le_log2 hzero).2
    omega

/-! ## Neighbourhoods -/

namespace Neighbourhood

/-- The ratio lies in the neighbourhood. -/
def Contains (near : Neighbourhood) (numerator denominator : Nat) : Prop :=
  if near.closed then near.low * denominator ≤ numerator * near.denominator ∧
    numerator * near.denominator ≤ near.high * denominator
  else near.low * denominator < numerator * near.denominator ∧
    numerator * near.denominator < near.high * denominator

theorem Contains.le {near : Neighbourhood} {numerator denominator : Nat}
    (h : near.Contains numerator denominator) :
    near.low * denominator ≤ numerator * near.denominator ∧
      numerator * near.denominator ≤ near.high * denominator := by
  unfold Contains at h
  split at h
  · exact h
  · exact ⟨h.1.le, h.2.le⟩

theorem Contains.lt {near : Neighbourhood} {numerator denominator : Nat}
    (h : near.Contains numerator denominator) (hopen : near.closed = false) :
    near.low * denominator < numerator * near.denominator ∧
      numerator * near.denominator < near.high * denominator := by
  simpa [Contains, hopen] using h

theorem holds_iff (near : Neighbourhood) (digits numeratorScale denominatorScale : Nat) :
    near.holds digits numeratorScale denominatorScale = true ↔
      near.Contains (digits * denominatorScale) numeratorScale := by
  unfold holds Contains
  split <;> simp

end Neighbourhood

/-- How far below a double its neighbourhood reaches, in quarters of its last place. -/
def reachBelow (x : Double) : Nat :=
  if x.parts.1 = fractionLimit && 0 < x.parts.2 then 1 else 2

theorem neighbourhood_eq (x : Double) :
    x.neighbourhood =
      { low := (4 * x.parts.1 - x.reachBelow) * 2 ^ x.parts.2
        value := 4 * x.parts.1 * 2 ^ x.parts.2
        high := (4 * x.parts.1 + 2) * 2 ^ x.parts.2
        denominator := 4 * unitInverse
        closed := x.parts.1 % 2 = 0 } := by
  simp only [neighbourhood, Nat.shiftLeft_eq, Nat.one_mul]
  rfl

theorem reachBelow_cases (x : Double) :
    x.reachBelow = 1 ∧ x.parts.1 = fractionLimit ∧ 0 < x.parts.2 ∨
      x.reachBelow = 2 ∧ (x.parts.1 = fractionLimit → x.parts.2 = 0) := by
  unfold reachBelow
  split
  · rename_i h
    rw [Bool.and_eq_true, decide_eq_true_eq, decide_eq_true_eq] at h
    exact .inl ⟨rfl, h⟩
  · rename_i h
    rw [Bool.and_eq_true, decide_eq_true_eq, decide_eq_true_eq] at h
    exact .inr ⟨rfl, by omega⟩

/-- A ratio near a double in terms of its significand and its last place. -/
theorem bounds_of_contains {x : Double} {numerator denominator : Nat}
    (h : x.neighbourhood.Contains numerator denominator) {place : Nat}
    (hplace : denominator * 2 ^ x.parts.2 = place) :
    4 * (x.parts.1 * place) ≤ 4 * (numerator * unitInverse) + x.reachBelow * place ∧
      4 * (numerator * unitInverse) ≤ 4 * (x.parts.1 * place) + 2 * place ∧
      (x.parts.1 % 2 = 1 →
        4 * (x.parts.1 * place) < 4 * (numerator * unitInverse) + x.reachBelow * place ∧
        4 * (numerator * unitInverse) < 4 * (x.parts.1 * place) + 2 * place) := by
  have hvalue : numerator * x.neighbourhood.denominator = 4 * (numerator * unitInverse) := by
    rw [neighbourhood_eq]
    ring
  have hlow : x.neighbourhood.low * denominator =
      4 * (x.parts.1 * place) - x.reachBelow * place := by
    rw [neighbourhood_eq, ← hplace]
    rw [Nat.mul_right_comm, ← Nat.mul_assoc, ← Nat.sub_mul]
    ring
  have hhigh : x.neighbourhood.high * denominator = 4 * (x.parts.1 * place) + 2 * place := by
    rw [neighbourhood_eq, ← hplace]
    ring
  have hle := h.le
  have hlt := h.lt
  rw [hvalue, hlow, hhigh] at hle hlt
  refine ⟨by omega, by omega, ?_⟩
  intro hodd
  have hstrict := hlt (by simp [neighbourhood_eq, hodd])
  omega

/-- The double with the exponent and the significand of a finite double is that one. -/
theorem ofMagnitude_eq {x : Double} (hfinite : x.isFinite = true) {magnitude : Nat}
    (h : magnitude = x.magnitude.val) : ofMagnitude x.negative magnitude = x := by
  have hmagnitude : x.magnitude.val < infinity := by simpa [isFinite] using hfinite
  obtain ⟨negative, value, hvalue⟩ := x
  subst h
  simp only [ofMagnitude, Double.mk.injEq, Fin.mk.injEq, true_and]
  exact Nat.min_eq_left hmagnitude.le

/-- With the exponent of a quotient known, the quotient is rounded at that exponent. -/
theorem log2_div_sub_eq {scaled denominator exponent : Nat} (hpositive : 0 < denominator)
    (hlow : exponent = 0 ∨ 2 ^ 52 * (denominator * 2 ^ exponent) ≤ scaled)
    (hhigh : scaled < 2 ^ 53 * (denominator * 2 ^ exponent)) :
    (scaled / denominator).log2 - 52 = exponent := by
  apply log2_sub_eq
  · apply hlow.imp_right
    intro h
    rw [Nat.le_div_iff_mul_le hpositive, pow_add]
    calc 2 ^ 52 * 2 ^ exponent * denominator = 2 ^ 52 * (denominator * 2 ^ exponent) := by ring
      _ ≤ scaled := h
  · rw [Nat.div_lt_iff_lt_mul hpositive, pow_add]
    calc scaled < 2 ^ 53 * (denominator * 2 ^ exponent) := hhigh
      _ = 2 ^ 53 * 2 ^ exponent * denominator := by ring

/-- A ratio near a double is rounded with the exponent of the double, unless it lies
below the power of two at which that exponent starts. -/
theorem rounded_of_regular {x : Double} {scaled denominator place : Nat}
    (hpositive : 0 < denominator) (hplace : denominator * 2 ^ x.parts.2 = place)
    (hregular : x.parts.2 = 0 ∨ 2 ^ 52 * place ≤ scaled)
    (hlow : 4 * (x.parts.1 * place) ≤ 4 * scaled + 2 * place)
    (hhigh : 4 * scaled ≤ 4 * (x.parts.1 * place) + 2 * place)
    (hodd : x.parts.1 % 2 = 1 → 4 * (x.parts.1 * place) < 4 * scaled + 2 * place ∧
      4 * scaled < 4 * (x.parts.1 * place) + 2 * place) :
    (scaled / denominator).log2 - 52 = x.parts.2 ∧ roundDiv scaled place = x.parts.1 := by
  obtain ⟨-, hsignificand, -⟩ := magnitude_eq x
  have hplace' : 0 < place := hplace ▸ Nat.mul_pos hpositive (Nat.two_pow_pos _)
  have hupper : x.parts.1 * place + place ≤ 2 * fractionLimit * place := by
    rw [← Nat.succ_mul]
    exact Nat.mul_le_mul_right _ hsignificand
  rw [fractionLimit_eq] at hupper
  constructor
  · rw [← hplace] at *
    apply log2_div_sub_eq hpositive hregular
    omega
  · apply roundDiv_eq hplace'
    · rw [Nat.mul_assoc]
      omega
    · rw [Nat.mul_assoc]
      omega
    · intro h
      have hstrict := hodd h
      rw [Nat.mul_assoc]
      omega

/-- Just below a power of two the exponent is one less and the significand rounds up. -/
theorem rounded_of_below (scaled : Nat) {denominator exponent place : Nat}
    (hpositive : 0 < denominator) (hplace : denominator * 2 ^ exponent = place)
    (hlow : 4 * (2 ^ 52 * (2 * place)) ≤ 4 * scaled + 2 * place)
    (hhigh : scaled < 2 ^ 52 * (2 * place)) :
    (scaled / denominator).log2 - 52 = exponent ∧ roundDiv scaled place = 2 ^ 53 := by
  have hplace' : 0 < place := hplace ▸ Nat.mul_pos hpositive (Nat.two_pow_pos _)
  constructor
  · rw [← hplace] at *
    apply log2_div_sub_eq hpositive
    · omega
    · omega
  · apply roundDiv_eq hplace'
    · omega
    · omega
    · intro h
      omega

/-- A ratio in the neighbourhood of a finite double rounds to it. -/
theorem ofRatio_of_contains {x : Double} (hfinite : x.isFinite = true)
    {numerator denominator : Nat} (hpositive : 0 < denominator)
    (h : x.neighbourhood.Contains numerator denominator) :
    ofRatio x.negative numerator denominator = x := by
  obtain ⟨hmagnitude, hsignificand, hnormal⟩ := magnitude_eq x
  obtain ⟨place, hplace⟩ : ∃ place, denominator * 2 ^ x.parts.2 = place := ⟨_, rfl⟩
  obtain ⟨hlow, hhigh, hodd⟩ := bounds_of_contains h hplace
  have hreach := x.reachBelow_cases
  have hquarters : x.reachBelow * place ≤ 2 * place := Nat.mul_le_mul_right _ (by omega)
  apply ofMagnitude_eq hfinite
  rw [hmagnitude, Nat.shiftLeft_eq]
  generalize numerator * unitInverse = scaled at hlow hhigh hodd ⊢
  by_cases hregular : x.parts.2 = 0 ∨ 2 ^ 52 * place ≤ scaled
  · obtain ⟨hexponent, hround⟩ :=
      rounded_of_regular hpositive hplace hregular (by omega) hhigh (by omega)
    rw [hexponent, hplace, hround]
  · obtain ⟨fewer, hfewer⟩ : ∃ fewer, x.parts.2 = fewer + 1 := ⟨x.parts.2 - 1, by omega⟩
    -- a larger significand would not reach below the power of two
    have hsignificand' : x.parts.1 = fractionLimit := by
      apply Nat.le_antisymm _ (by omega)
      by_contra hmore
      have := Nat.mul_le_mul_right place (show fractionLimit + 1 ≤ x.parts.1 by omega)
      rw [fractionLimit_eq] at this
      omega
    have hreach' : x.reachBelow = 1 := by omega
    obtain ⟨half, hhalf⟩ : ∃ half, denominator * 2 ^ fewer = half := ⟨_, rfl⟩
    have hdouble : place = 2 * half := by
      rw [← hplace, hfewer, ← hhalf]
      ring
    rw [hreach', hsignificand', fractionLimit_eq, hdouble] at hlow
    rw [hdouble] at hregular
    obtain ⟨hexponent, hround⟩ :=
      rounded_of_below scaled hpositive hhalf (by omega) (by omega)
    rw [hexponent, hhalf, hround, hsignificand', hfewer, fractionLimit_eq]
    omega

end CatalogSearch.Double
