import CatalogSearch.Number.Notation
import Mathlib.Tactic.Ring

/-!
# Numerals without exponent

A double in query text is made of digits, with at most one point among them and a
minus before them.  It reads as the decimal that was written: the digits stay, and
zeros between them and the point become digits.
-/

namespace CatalogSearch.Decimal

/-! ## Runs of digits -/

theorem ofDigits_eq (text : List Char) : ofDigits text = Nat.ofDigitChars 10 text 0 := rfl

theorem ofDigits_append (first second : List Char) :
    ofDigits (first ++ second) = 10 ^ second.length * ofDigits first + ofDigits second := by
  rw [ofDigits_eq, Nat.ofDigitChars_append, Nat.ofDigitChars_eq_ofDigitChars_zero]
  rfl

theorem ofDigits_replicate (count : Nat) : ofDigits (List.replicate count '0') = 0 := by
  rw [ofDigits_eq, Nat.ofDigitChars_replicate_zero, Nat.mul_zero]

theorem ofDigits_digitText (value : Decimal) : ofDigits value.digitText = value.digits :=
  Nat.ofDigitChars_ten_toDigits

theorem isDigit_of_mem_digitText {value : Decimal} {c : Char} (h : c ∈ value.digitText) :
    c.isDigit = true :=
  Nat.isDigit_of_mem_toDigits (by decide) (by decide) h

theorem isDigit_of_mem_replicate {count : Nat} {c : Char} (h : c ∈ List.replicate count '0') :
    c.isDigit = true := by
  rw [(List.mem_replicate.1 h).2]
  rfl

/-! ## What is written -/

/-- Digits before a point and, if there are any, digits behind it. -/
def pointed (whole : List Char) : List Char → List Char
  | [] => whole
  | places => whole ++ '.' :: places

/-- The decimal that a numeral with these digits stands for. -/
def ofPlaces (whole places : List Char) : Decimal :=
  ⟨ofDigits (whole ++ places), -places.length⟩

/-- A decimal as its numeral without exponent stands for it. -/
def settled (value : Decimal) : Decimal :=
  if 0 ≤ value.exponent then ⟨value.digits * 10 ^ value.exponent.toNat, 0⟩ else value

/-- The digits before and behind the point of a numeral. -/
structure Spells (value : Decimal) (whole places : List Char) : Prop where
  text : value.positional [] = pointed whole places
  ne_nil : whole ≠ []
  isDigit : ∀ c ∈ whole ++ places, c.isDigit = true
  value : ofPlaces whole places = value.settled

theorem settled_of_neg {value : Decimal} (h : value.exponent < 0) : value.settled = value :=
  if_neg (by omega)

theorem pointed_of_ne_nil {places : List Char} (h : places ≠ []) (whole : List Char) :
    pointed whole places = whole ++ '.' :: places := by
  cases places with
  | nil => contradiction
  | cons c places => rfl

theorem spells_of_small {value : Decimal}
    (h : (value.digitText.length : Int) + value.exponent ≤ 0) :
    value.Spells ['0'] (List.replicate (-(value.digitText.length + value.exponent)).toNat '0' ++
      value.digitText) := by
  have hpositive : 0 < value.digitText.length := Nat.length_toDigits_pos
  have hplaces : List.replicate (-(value.digitText.length + value.exponent)).toNat '0' ++
      value.digitText ≠ [] := by
    intro hnil
    rw [List.append_eq_nil_iff] at hnil
    rw [hnil.2] at hpositive
    cases hpositive
  constructor
  · rw [pointed_of_ne_nil hplaces, positional, if_pos h]
    rfl
  · simp
  · intro c hc
    rw [← List.append_assoc, List.mem_append, List.mem_append, List.mem_singleton] at hc
    obtain (rfl | hc) | hc := hc
    · rfl
    · exact isDigit_of_mem_replicate hc
    · exact isDigit_of_mem_digitText hc
  · rw [settled_of_neg (by omega), ofPlaces, ← List.append_assoc, ofDigits_append,
      ofDigits_append, ofDigits_replicate, ofDigits_digitText]
    have hzero : ofDigits ['0'] = 0 := rfl
    obtain ⟨digits, exponent⟩ := value
    simp only [hzero, List.length_append, List.length_replicate, Decimal.mk.injEq] at h ⊢
    omega

theorem spells_of_large {value : Decimal} (h : 0 ≤ value.exponent) :
    value.Spells (value.digitText ++ List.replicate value.exponent.toNat '0') [] := by
  have hpositive : 0 < value.digitText.length := Nat.length_toDigits_pos
  constructor
  · have hpoint : ¬(value.digitText.length : Int) + value.exponent ≤ 0 := by omega
    have hwhole : (value.digitText.length : Int) ≤ value.digitText.length + value.exponent := by
      omega
    have hcount : (value.digitText.length + value.exponent).toNat - value.digitText.length =
        value.exponent.toNat := by omega
    simp only [positional]
    rw [if_neg hpoint, if_pos hwhole, hcount, List.append_nil]
    rfl
  · intro hnil
    rw [List.append_eq_nil_iff] at hnil
    rw [hnil.1] at hpositive
    cases hpositive
  · intro c hc
    rw [List.append_nil, List.mem_append] at hc
    obtain hc | hc := hc
    · exact isDigit_of_mem_digitText hc
    · exact isDigit_of_mem_replicate hc
  · rw [settled, if_pos h, ofPlaces, List.append_nil, ofDigits_append, ofDigits_replicate,
      ofDigits_digitText, List.length_replicate, Nat.add_zero, Nat.mul_comm]
    rfl

theorem spells_of_between {value : Decimal} (hneg : value.exponent < 0)
    (hpoint : 0 < (value.digitText.length : Int) + value.exponent) :
    value.Spells (value.digitText.take (value.digitText.length + value.exponent).toNat)
      (value.digitText.drop (value.digitText.length + value.exponent).toNat) := by
  generalize hcount : (value.digitText.length + value.exponent).toNat = count
  have hlength : (value.digitText.drop count).length = value.digitText.length - count :=
    List.length_drop
  have hplaces : value.digitText.drop count ≠ [] := by
    intro hnil
    rw [hnil, List.length_nil] at hlength
    omega
  constructor
  · have hleft : ¬(value.digitText.length : Int) + value.exponent ≤ 0 := by omega
    have hright : ¬(value.digitText.length : Int) ≤ value.digitText.length + value.exponent := by
      omega
    simp only [positional]
    rw [if_neg hleft, if_neg hright, hcount, pointed_of_ne_nil hplaces]
  · intro hnil
    have hzero := congrArg List.length hnil
    rw [List.length_take, List.length_nil] at hzero
    omega
  · intro c hc
    rw [List.take_append_drop] at hc
    exact isDigit_of_mem_digitText hc
  · rw [settled_of_neg hneg, ofPlaces, List.take_append_drop, ofDigits_digitText, hlength]
    obtain ⟨digits, exponent⟩ := value
    simp only [Decimal.mk.injEq, true_and] at hcount hneg hpoint ⊢
    omega

/-- A decimal is written with digits that stand for it. -/
theorem exists_spells (value : Decimal) : ∃ whole places, value.Spells whole places := by
  by_cases hpoint : (value.digitText.length : Int) + value.exponent ≤ 0
  · exact ⟨_, _, spells_of_small hpoint⟩
  by_cases hexponent : 0 ≤ value.exponent
  · exact ⟨_, _, spells_of_large hexponent⟩
  · exact ⟨_, _, spells_of_between (by omega) (by omega)⟩

/-- A numeral without exponent is digits and perhaps a point. -/
theorem pointed_forall {p : Char → Prop} {whole places : List Char}
    (hdigits : ∀ c ∈ whole ++ places, p c) (hpoint : p '.') : ∀ c ∈ pointed whole places, p c := by
  cases places with
  | nil =>
    rw [List.append_nil] at hdigits
    exact hdigits
  | cons place places =>
    intro c hc
    rw [pointed_of_ne_nil (List.cons_ne_nil place places), List.mem_append, List.mem_cons] at hc
    obtain hc | rfl | hc := hc
    · exact hdigits c (List.mem_append_left _ hc)
    · exact hpoint
    · exact hdigits c (List.mem_append_right _ hc)

theorem head?_pointed {whole : List Char} (h : whole ≠ []) (places : List Char) :
    (pointed whole places).head? = whole.head? := by
  cases whole with
  | nil => contradiction
  | cons c whole => cases places <;> rfl

/-- A numeral without exponent starts with a digit. -/
theorem Spells.exists_cons {value : Decimal} {whole places : List Char}
    (h : value.Spells whole places) :
    ∃ first tail, pointed whole places = first :: tail ∧ first.isDigit = true := by
  cases whole with
  | nil => exact absurd rfl h.ne_nil
  | cons first whole =>
    have hfirst : first.isDigit = true := h.isDigit first (by simp)
    cases places with
    | nil => exact ⟨first, whole, rfl, hfirst⟩
    | cons place places => exact ⟨first, whole ++ '.' :: place :: places, rfl, hfirst⟩

/-! ## What is read -/

theorem takeWhile_isDigit {text rest : List Char} (htext : ∀ c ∈ text, c.isDigit = true)
    (hrest : ∀ c ∈ rest.head?, c.isDigit = false) :
    (text ++ rest).takeWhile Char.isDigit = text ∧
      (text ++ rest).dropWhile Char.isDigit = rest := by
  rw [List.takeWhile_append_of_pos htext, List.dropWhile_append_of_pos htext]
  cases rest with
  | nil => simp
  | cons c rest =>
    have hc : c.isDigit = false := hrest c rfl
    simp [hc]

theorem splitSign_of_isDigit {text : List Char} (h : ∀ c ∈ text.head?, c.isDigit = true) :
    splitSign text = (false, text) := by
  unfold splitSign
  split
  · cases h '-' rfl
  · cases h '+' rfl
  · rfl

/-- Digits with or without a point among them read as the decimal they stand for. -/
theorem read?_pointed {whole places : List Char} (hwhole : whole ≠ [])
    (hdigits : ∀ c ∈ whole ++ places, c.isDigit = true) (negative : Bool) :
    read? ((if negative then ['-'] else []) ++ pointed whole places) =
      some (negative, ofPlaces whole places) := by
  have hfirst : ∀ c ∈ whole, c.isDigit = true := fun c hc =>
    hdigits c (List.mem_append_left _ hc)
  have hsecond : ∀ c ∈ places, c.isDigit = true := fun c hc =>
    hdigits c (List.mem_append_right _ hc)
  have hsign : splitSign ((if negative then ['-'] else []) ++ pointed whole places) =
      (negative, pointed whole places) := by
    cases negative with
    | true => rfl
    | false =>
      apply splitSign_of_isDigit
      intro c hc
      change c ∈ (pointed whole places).head? at hc
      rw [head?_pointed hwhole] at hc
      exact hfirst c (List.mem_of_mem_head? hc)
  have halone : ∀ {text : List Char}, (∀ c ∈ text, c.isDigit = true) →
      text.takeWhile Char.isDigit = text ∧ text.dropWhile Char.isDigit = [] := by
    intro text htext
    have hempty : ∀ c ∈ ([] : List Char).head?, c.isDigit = false := nofun
    have hall := takeWhile_isDigit htext hempty
    rwa [List.append_nil] at hall
  cases places with
  | nil =>
    obtain ⟨htake, hdrop⟩ := halone hfirst
    change splitSign ((if negative then ['-'] else []) ++ whole) = (negative, whole) at hsign
    change read? ((if negative then ['-'] else []) ++ whole) = _
    simp [read?, hsign, htake, hdrop, hwhole, readExponent?, ofPlaces]
  | cons place places =>
    have hpoint : ∀ c ∈ ('.' :: place :: places).head?, c.isDigit = false := by simp
    obtain ⟨htake, hdrop⟩ := takeWhile_isDigit hfirst hpoint
    obtain ⟨hplaces, hnone⟩ := halone hsecond
    rw [pointed_of_ne_nil (List.cons_ne_nil place places)] at hsign ⊢
    simp [read?, hsign, htake, hdrop, hplaces, hnone, readExponent?, ofPlaces]

end CatalogSearch.Decimal
