import CatalogSearch.Proofs.Number.Positional
import CatalogSearch.Proofs.Number.Rounding

/-!
# The shortest numeral

Seventeen digits are enough to come near any finite double, so the search for the
shortest numeral ends with one in the neighbourhood of the double.  Every such numeral
reads back as the double.
-/

namespace CatalogSearch

namespace Decimal

/-- The decimal lies in the neighbourhood of a double. -/
def Lies (value : Decimal) (near : Double.Neighbourhood) : Prop :=
  near.Contains (value.digits * 10 ^ value.exponent.toNat) (10 ^ (-value.exponent).toNat)

theorem two_pow_le_ten_pow {exponent count : Nat} (h : exponent ≤ 3 * count) :
    2 ^ exponent ≤ 10 ^ count := by
  calc 2 ^ exponent ≤ 2 ^ (3 * count) := Nat.pow_le_pow_right (by decide) h
    _ = 8 ^ count := by rw [pow_mul]; norm_num
    _ ≤ 10 ^ count := Nat.pow_le_pow_left (by decide) count

/-- The digits of a number start at its leading power of ten. -/
theorem ten_pow_le {value : Nat} (h : 0 < value) :
    10 ^ ((Nat.toDigits 10 value).length - 1) ≤ value := by
  by_cases hone : (Nat.toDigits 10 value).length - 1 = 0
  · rw [hone]
    exact h
  · by_contra hless
    have := (Nat.length_toDigits_le_iff (by decide) (Nat.pos_of_ne_zero hone)).2 (not_le.1 hless)
    omega

end Decimal

namespace Double.Neighbourhood

/-! ## Neighbourhoods -/

theorem contains_of_between {near : Neighbourhood} {numerator denominator : Nat}
    (hlow : near.low * denominator < numerator * near.denominator)
    (hhigh : numerator * near.denominator < near.high * denominator) :
    near.Contains numerator denominator := by
  unfold Contains
  split
  · exact ⟨hlow.le, hhigh.le⟩
  · exact ⟨hlow, hhigh⟩

/-- Reducing a ratio does not move it. -/
theorem contains_of_scaled {near : Neighbourhood} {numerator denominator : Nat}
    (h : near.Contains (10 * numerator) (10 * denominator)) :
    near.Contains numerator denominator := by
  unfold Contains at h ⊢
  have hlow : near.low * (10 * denominator) = 10 * (near.low * denominator) := by ring
  have hhigh : near.high * (10 * denominator) = 10 * (near.high * denominator) := by ring
  rw [hlow, hhigh, Nat.mul_assoc 10] at h
  split at h
  · rename_i hclosed
    rw [if_pos hclosed]
    omega
  · rename_i hopen
    rw [if_neg hopen]
    omega

/-- Without a zero at its end a numeral is where it was. -/
theorem lies_of_moved {near : Neighbourhood} {digits : Nat} {exponent : Int}
    (h : Decimal.Lies ⟨10 * digits, exponent⟩ near) :
    Decimal.Lies ⟨digits, exponent + 1⟩ near := by
  unfold Decimal.Lies at h ⊢
  dsimp only at h ⊢
  by_cases hexponent : 0 ≤ exponent
  · have hraise : (exponent + 1).toNat = exponent.toNat + 1 := by omega
    have hnone : (-exponent).toNat = 0 ∧ (-(exponent + 1)).toNat = 0 := by omega
    have hdigits : 10 * digits * 10 ^ exponent.toNat = digits * 10 ^ (exponent.toNat + 1) := by ring
    rw [hnone.1, hdigits] at h
    rwa [hnone.2, hraise]
  · have hlower : (-exponent).toNat = (-(exponent + 1)).toNat + 1 := by omega
    have hnone : exponent.toNat = 0 ∧ (exponent + 1).toNat = 0 := by omega
    have hplaces : 10 ^ ((-(exponent + 1)).toNat + 1) = 10 * 10 ^ (-(exponent + 1)).toNat := by ring
    rw [hnone.1, hlower, hplaces, Nat.mul_assoc] at h
    rw [hnone.2]
    exact contains_of_scaled h

theorem lies_normalize {near : Neighbourhood} (fuel : Nat) {value : Decimal}
    (h : value.Lies near) : (value.normalize fuel).Lies near := by
  induction fuel generalizing value with
  | zero => exact h
  | succ fuel ih =>
    unfold Decimal.normalize
    split
    · rename_i hzero
      have hdigits : 10 * (value.digits / 10) = value.digits := by
        simp only [Bool.and_eq_true, bne_iff_ne, beq_iff_eq] at hzero
        omega
      have hmoved : Decimal.Lies ⟨10 * (value.digits / 10), value.exponent⟩ near := by
        rw [hdigits]
        exact h
      exact ih (lies_of_moved hmoved)
    · exact h

/-! ## The search -/

/-- What is found with a given last place lies in the neighbourhood. -/
theorem lies_of_nearest? {near : Neighbourhood} {tie : Decimal.Tie} {lastPlace : Int}
    {value : Decimal} (h : near.nearest? tie lastPlace = some value) : value.Lies near := by
  have hlies : ∀ digits, near.holds digits (10 ^ (-lastPlace).toNat) (10 ^ lastPlace.toNat) =
      true → Decimal.Lies ⟨digits, lastPlace⟩ near := fun digits =>
    (holds_iff near digits _ _).1
  unfold nearest? at h
  dsimp only at h
  split at h
  · rename_i hlower hupper
    cases h
    exact hlies _ hlower
  · rename_i hlower hupper
    cases h
    exact hlies _ hupper
  · cases h
  · rename_i hlower hupper
    split_ifs at h
    · cases h
      exact hlies _ hlower
    · cases h
      exact hlies _ hupper
    · cases h
      exact hlies _ hlower
    · cases h
      exact hlies _ hupper

/-- One of the two numerals around a double lies in its neighbourhood, if that is wider
than the last place. -/
theorem holds_below_or_above {near : Neighbourhood} {below numeratorScale denominatorScale : Nat}
    (hlow : near.low * numeratorScale < near.value * numeratorScale)
    (hhigh : near.value * numeratorScale < near.high * numeratorScale)
    (hwide : near.low * numeratorScale + near.denominator * denominatorScale <
      near.high * numeratorScale)
    (hbelow : near.denominator * denominatorScale * below ≤ near.value * numeratorScale)
    (habove : near.value * numeratorScale <
      near.denominator * denominatorScale * below + near.denominator * denominatorScale) :
    near.holds below numeratorScale denominatorScale = true ∨
      near.holds (below + 1) numeratorScale denominatorScale = true := by
  have hpoint : below * denominatorScale * near.denominator =
      near.denominator * denominatorScale * below := by ring
  have hnext : (below + 1) * denominatorScale * near.denominator =
      near.denominator * denominatorScale * below + near.denominator * denominatorScale := by ring
  rw [holds_iff, holds_iff]
  by_cases hupper : (below + 1) * denominatorScale * near.denominator < near.high * numeratorScale
  · right
    apply contains_of_between _ hupper
    omega
  · left
    apply contains_of_between
    · omega
    · omega

theorem isSome_nearest? {near : Neighbourhood} {lastPlace : Int} (hlow : near.low < near.value)
    (hhigh : near.value < near.high) (hpositive : 0 < near.denominator)
    (hwide : near.low * 10 ^ (-lastPlace).toNat + near.denominator * 10 ^ lastPlace.toNat <
      near.high * 10 ^ (-lastPlace).toNat)
    (tie : Decimal.Tie) : (near.nearest? tie lastPlace).isSome = true := by
  have hnumerator : 0 < 10 ^ (-lastPlace).toNat := Nat.pow_pos (by decide)
  have hdenominator : 0 < near.denominator * 10 ^ lastPlace.toNat :=
    Nat.mul_pos hpositive (Nat.pow_pos (by decide))
  have hdivide := Nat.div_add_mod (near.value * 10 ^ (-lastPlace).toNat)
    (near.denominator * 10 ^ lastPlace.toNat)
  have hmod := Nat.mod_lt (near.value * 10 ^ (-lastPlace).toNat) hdenominator
  have hholds := holds_below_or_above (Nat.mul_lt_mul_of_pos_right hlow hnumerator)
    (Nat.mul_lt_mul_of_pos_right hhigh hnumerator) hwide (Nat.le.intro hdivide) (by omega)
  unfold nearest?
  simp only [Nat.pow_eq]
  split
  · rfl
  · rfl
  · rename_i hlower hupper
    rw [hlower, hupper] at hholds
    cases hholds <;> contradiction
  · split_ifs <;> rfl

/-- The search ends in the neighbourhood, if it contains a numeral of as many digits as are
tried last. -/
theorem lies_fewest {near : Neighbourhood} {tie : Decimal.Tie} (fuel digits : Nat)
    (h : (near.nearest? tie (near.leadingPlace - (digits + fuel : Nat))).isSome = true) :
    (near.fewest tie digits fuel).Lies near := by
  induction fuel generalizing digits with
  | zero =>
    obtain ⟨value, hvalue⟩ := Option.isSome_iff_exists.1 h
    unfold fewest
    rw [Nat.add_zero] at hvalue
    rw [hvalue, Option.getD_some]
    exact lies_of_nearest? hvalue
  | succ fuel ih =>
    unfold fewest
    split
    · rename_i value hvalue
      exact lies_of_nearest? hvalue
    · apply ih
      rw [Nat.add_right_comm]
      exact h

/-! ## Seventeen digits -/

theorem leadingPlace_sub (near : Neighbourhood) : near.leadingPlace - 17 =
    (Nat.toDigits 10 (near.value * 10 ^ 400 / near.denominator)).length - 417 := by
  rw [leadingPlace, Int.sub_sub]
  rfl

/-- The last of seventeen places, taken ten to the sixteenth times, is no more than the
number itself. -/
theorem seventeen_places {near : Neighbourhood} (hpositive : 0 < near.denominator)
    (hlarge : near.denominator ≤ near.value * 10 ^ 400) :
    near.denominator * 10 ^ (near.leadingPlace - 17).toNat * 10 ^ 16 ≤
      near.value * 10 ^ (-(near.leadingPlace - 17)).toNat := by
  have hleading : 0 < near.value * 10 ^ 400 / near.denominator := Nat.div_pos hlarge hpositive
  have hpower := Decimal.ten_pow_le hleading
  have hlength : 0 < (Nat.toDigits 10 (near.value * 10 ^ 400 / near.denominator)).length :=
    Nat.length_toDigits_pos
  rw [Nat.le_div_iff_mul_le hpositive] at hpower
  rw [leadingPlace_sub]
  generalize (Nat.toDigits 10 (near.value * 10 ^ 400 / near.denominator)).length = length at *
  have hscales : 10 ^ ((length : Int) - 417).toNat * (10 ^ 16 * 10 ^ 400) =
      10 ^ (-((length : Int) - 417)).toNat * 10 ^ (length - 1) := by
    rw [← pow_add, ← pow_add, ← pow_add]
    congr 1
    omega
  apply Nat.le_of_mul_le_mul_right _ (Nat.pow_pos (show 0 < 10 by decide) : 0 < 10 ^ 400)
  generalize 10 ^ ((length : Int) - 417).toNat = lastScale at hscales ⊢
  generalize 10 ^ (-((length : Int) - 417)).toNat = scale at hscales ⊢
  calc near.denominator * lastScale * 10 ^ 16 * 10 ^ 400
      = near.denominator * (lastScale * (10 ^ 16 * 10 ^ 400)) := by
        rw [Nat.mul_assoc, Nat.mul_assoc]
    _ = scale * (10 ^ (length - 1) * near.denominator) := by
        rw [hscales, Nat.mul_left_comm, Nat.mul_comm near.denominator]
    _ ≤ scale * (near.value * 10 ^ 400) := Nat.mul_le_mul_left _ hpower
    _ = near.value * scale * 10 ^ 400 := by rw [← Nat.mul_assoc, Nat.mul_comm scale]

end Double.Neighbourhood

namespace Double

theorem unitInverse_pos : 0 < unitInverse := by
  rw [unitInverse_eq]
  exact Nat.two_pow_pos _

theorem low_lt_value {x : Double} (hpositive : 0 < x.parts.1) :
    x.neighbourhood.low < x.neighbourhood.value := by
  have hreach := x.reachBelow_cases
  rw [neighbourhood_eq]
  exact Nat.mul_lt_mul_of_pos_right (by omega) (Nat.two_pow_pos _)

theorem value_lt_high (x : Double) : x.neighbourhood.value < x.neighbourhood.high := by
  rw [neighbourhood_eq]
  exact Nat.mul_lt_mul_of_pos_right (by omega) (Nat.two_pow_pos _)

theorem unitInverse_le {count : Nat} (h : 359 ≤ count) : 8 * unitInverse ≤ 10 ^ count := by
  -- The exponent is hidden, so that the power is not computed.
  obtain ⟨exponent, hexponent⟩ : ∃ exponent, exponent = 1074 := ⟨_, rfl⟩
  rw [unitInverse_eq, ← hexponent]
  calc 8 * 2 ^ exponent = 2 ^ (exponent + 3) := by ring
    _ ≤ 10 ^ count := Decimal.two_pow_le_ten_pow (by omega)

/-- The last of seventeen places is less than the neighbourhood of a double is wide. -/
theorem wide_of_seventeen {x : Double} (hpositive : 0 < x.parts.1) :
    x.neighbourhood.low * 10 ^ (-(x.neighbourhood.leadingPlace - 17)).toNat +
        x.neighbourhood.denominator * 10 ^ (x.neighbourhood.leadingPlace - 17).toNat <
      x.neighbourhood.high * 10 ^ (-(x.neighbourhood.leadingPlace - 17)).toNat := by
  have hlarge : x.neighbourhood.denominator ≤ x.neighbourhood.value * 10 ^ 400 := by
    rw [neighbourhood_eq]
    have hvalue : 0 < 4 * x.parts.1 * 2 ^ x.parts.2 :=
      Nat.mul_pos (by omega) (Nat.two_pow_pos _)
    calc 4 * unitInverse ≤ 8 * unitInverse := Nat.mul_le_mul_right _ (by decide)
      _ ≤ 10 ^ 400 := unitInverse_le (by decide)
      _ ≤ 4 * x.parts.1 * 2 ^ x.parts.2 * 10 ^ 400 := Nat.le_mul_of_pos_left _ hvalue
  have hdenominator : 0 < x.neighbourhood.denominator := Nat.mul_pos (by decide) unitInverse_pos
  have hplaces := Neighbourhood.seventeen_places hdenominator hlarge
  have hscale : 0 < 10 ^ (-(x.neighbourhood.leadingPlace - 17)).toNat := Nat.pow_pos (by decide)
  generalize 10 ^ (-(x.neighbourhood.leadingPlace - 17)).toNat = scale at hplaces hscale ⊢
  generalize 10 ^ (x.neighbourhood.leadingPlace - 17).toNat = lastScale at hplaces ⊢
  have hplace : 0 < 2 ^ x.parts.2 * scale := Nat.mul_pos (Nat.two_pow_pos _) hscale
  have hlow : x.neighbourhood.low * scale =
      4 * (x.parts.1 * (2 ^ x.parts.2 * scale)) - x.reachBelow * (2 ^ x.parts.2 * scale) := by
    rw [neighbourhood_eq, Nat.mul_assoc, Nat.sub_mul, Nat.mul_assoc]
  have hvalue : x.neighbourhood.value * scale = 4 * (x.parts.1 * (2 ^ x.parts.2 * scale)) := by
    rw [neighbourhood_eq, Nat.mul_assoc, Nat.mul_assoc]
  have hhigh : x.neighbourhood.high * scale =
      4 * (x.parts.1 * (2 ^ x.parts.2 * scale)) + 2 * (2 ^ x.parts.2 * scale) := by
    rw [neighbourhood_eq, Nat.mul_assoc, Nat.add_mul, Nat.mul_assoc]
  have hsignificand : x.parts.1 * (2 ^ x.parts.2 * scale) + 2 ^ x.parts.2 * scale ≤
      2 * fractionLimit * (2 ^ x.parts.2 * scale) := by
    rw [← Nat.succ_mul]
    exact Nat.mul_le_mul_right _ (magnitude_eq x).2.1
  rw [hvalue] at hplaces
  rw [hlow, hhigh]
  obtain ⟨hreach, hlimit, -⟩ | ⟨hreach, -⟩ := x.reachBelow_cases
  · rw [hreach]
    rw [hlimit, fractionLimit_eq] at hplaces ⊢
    omega
  · rw [hreach]
    rw [fractionLimit_eq] at hsignificand
    omega

/-- The shortest numeral of a double other than zero lies in its neighbourhood. -/
theorem lies_shortest {x : Double} (hpositive : 0 < x.parts.1) (tie : Decimal.Tie) :
    (x.shortest tie).Lies x.neighbourhood := by
  have hmagnitude : x.magnitude.val ≠ 0 := by
    have := (magnitude_eq x).1
    omega
  have hlies : (x.neighbourhood.fewest tie 1 16).Lies x.neighbourhood := by
    apply Neighbourhood.lies_fewest
    apply Neighbourhood.isSome_nearest?
    · exact low_lt_value hpositive
    · exact value_lt_high x
    · exact Nat.mul_pos (by decide) unitInverse_pos
    · exact wide_of_seventeen hpositive
  rw [shortest, if_neg hmagnitude]
  exact Neighbourhood.lies_normalize 17 hlies

end Double

/-! ## Reading back -/

namespace Decimal

theorem digits_pos_of_lies {near : Double.Neighbourhood} (hlow : 0 < near.low) {value : Decimal}
    (h : value.Lies near) : 0 < value.digits := by
  have hle := h.le.1
  have hpower : 0 < near.low * 10 ^ (-value.exponent).toNat :=
    Nat.mul_pos hlow (Nat.pow_pos (by decide))
  by_contra hzero
  rw [Nat.eq_zero_of_not_pos hzero, Nat.zero_mul, Nat.zero_mul] at hle
  omega

/-- A decimal near a double is not so small that it is taken for zero. -/
theorem exponent_ge_of_lies {x : Double} (hlow : 0 < x.neighbourhood.low) {value : Decimal}
    (h : value.Lies x.neighbourhood) (hneg : value.exponent < 0) :
    -(400 + (value.digits.log2 : Int)) ≤ value.exponent := by
  by_contra hless
  have hle := h.le.1
  have hnone : value.exponent.toNat = 0 := by omega
  have hpower : 10 ^ (359 + value.digits.log2) ≤ 10 ^ (-value.exponent).toNat :=
    Nat.pow_le_pow_right (by decide) (by omega)
  rw [hnone, pow_zero, Nat.mul_one] at hle
  have hsmall : value.digits * x.neighbourhood.denominator < 10 ^ (359 + value.digits.log2) := by
    calc value.digits * x.neighbourhood.denominator
        < 2 ^ (value.digits.log2 + 1) * x.neighbourhood.denominator :=
          Nat.mul_lt_mul_of_pos_right Nat.lt_log2_self
            (Nat.mul_pos (by decide) Double.unitInverse_pos)
      _ = 8 * Double.unitInverse * 2 ^ value.digits.log2 := by
        rw [Double.neighbourhood_eq]
        ring
      _ ≤ 10 ^ 359 * 10 ^ value.digits.log2 :=
        Nat.mul_le_mul (Double.unitInverse_le le_rfl) (Nat.pow_le_pow_left (by decide) _)
      _ = 10 ^ (359 + value.digits.log2) := (pow_add _ _ _).symm
  have hlarge : 10 ^ (-value.exponent).toNat ≤
      x.neighbourhood.low * 10 ^ (-value.exponent).toNat := Nat.le_mul_of_pos_left _ hlow
  omega

theorem toDouble_settled {x : Double} (hfinite : x.isFinite = true)
    (hlow : 0 < x.neighbourhood.low) {value : Decimal} (h : value.Lies x.neighbourhood) :
    value.settled.toDouble x.negative = x := by
  have hdigits := digits_pos_of_lies hlow h
  have hcontains := h
  unfold Lies at hcontains
  unfold settled
  split
  · rename_i hexponent
    have hnone : (-value.exponent).toNat = 0 := by omega
    have hpositive : value.digits * 10 ^ value.exponent.toNat ≠ 0 :=
      (Nat.mul_pos hdigits (Nat.pow_pos (by decide))).ne'
    rw [hnone, pow_zero] at hcontains
    unfold toDouble
    dsimp only
    rw [if_neg hpositive, if_neg (by omega), if_neg (by omega), if_pos le_rfl]
    rw [Int.toNat_zero, Nat.pow_eq, pow_zero, Nat.mul_one]
    exact Double.ofRatio_of_contains hfinite Nat.one_pos hcontains
  · rename_i hexponent
    have hnone : value.exponent.toNat = 0 := by omega
    have hge := exponent_ge_of_lies hlow h (by omega)
    rw [hnone, pow_zero, Nat.mul_one] at hcontains
    unfold toDouble
    rw [if_neg (by omega), if_neg (by omega), if_neg (by omega), if_neg hexponent]
    exact Double.ofRatio_of_contains hfinite (Nat.pow_pos (by decide)) hcontains

end Decimal

namespace Double

theorem low_pos {x : Double} (hpositive : 0 < x.parts.1) : 0 < x.neighbourhood.low := by
  have hreach := x.reachBelow_cases
  rw [neighbourhood_eq]
  exact Nat.mul_pos (by omega) (Nat.two_pow_pos _)

/-- What is written of a finite double has its value. -/
theorem toDouble_shortest {x : Double} (h : x.isFinite = true) (tie : Decimal.Tie) :
    (x.shortest tie).settled.toDouble x.negative = x := by
  by_cases hzero : x.magnitude.val = 0
  · rw [shortest, if_pos hzero]
    exact ofMagnitude_eq h hzero.symm
  · have hpositive : 0 < x.parts.1 := by
      obtain ⟨hmagnitude, -, hnormal⟩ := magnitude_eq x
      rw [fractionLimit_eq] at *
      by_contra hsignificand
      have hexponent : x.parts.2 = 0 := by omega
      rw [hexponent] at hmagnitude
      omega
    exact Decimal.toDouble_settled h (low_pos hpositive) (lies_shortest hpositive tie)

/-- A finite double is read from its numeral in query text. -/
theorem readDouble?_plain {x : Double} (h : x.isFinite = true) :
    Decimal.readDouble? x.plain = some x := by
  obtain ⟨whole, places, hspells⟩ := (x.shortest .away).exists_spells
  have hread := Decimal.read?_pointed hspells.ne_nil hspells.isDigit x.negative
  rw [Decimal.readDouble?, plain, if_pos h, hspells.text, signText, hread, hspells.value]
  exact congrArg some (toDouble_shortest h .away)

end Double

end CatalogSearch
