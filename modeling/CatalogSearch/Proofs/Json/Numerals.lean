import CatalogSearch.Json.Reader

/-!
# Numerals in structured text

A numeral is read up to the first character with which it cannot go on, so what is
read of it does not change when other text follows.
-/

namespace CatalogSearch.Json

/-- Whether a numeral in front of a text is over where the text begins. -/
def EndsNumeral (rest : List Char) : Prop :=
  ∀ c ∈ rest.head?, c.isDigit = false ∧ c ≠ '.' ∧ c ≠ 'e' ∧ c ≠ 'E'

/-- What is read stays what it is, and stops where it stopped, when other text follows. -/
def ReadsBefore {α : Type} (read : Reader α) (rest : List Char) : Prop :=
  ∀ ⦃text left : List Char⦄ ⦃value : α⦄, read text = some (value, left) →
    read (text ++ rest) = some (value, left ++ rest)

variable {rest : List Char}

/-- A reader that goes on where another one stopped. -/
def readThen {α β : Type} (first : Reader α) (next : α → Reader β) : Reader β := fun text =>
  (first text).bind fun part => next part.1 part.2

theorem ReadsBefore.readThen {α β : Type} {first : Reader α} {next : α → Reader β}
    (hfirst : ReadsBefore first rest) (hnext : ∀ value, ReadsBefore (next value) rest) :
    ReadsBefore (readThen first next) rest := by
  intro text left value hread
  obtain ⟨⟨part, more⟩, hpart, hvalue⟩ := Option.bind_eq_some_iff.1 hread
  rw [Json.readThen, hfirst hpart]
  exact hnext part hvalue

/-! ## Runs of digits -/

theorem EndsNumeral.takeWhile (h : EndsNumeral rest) (text : List Char) :
    (text ++ rest).takeWhile Char.isDigit = text.takeWhile Char.isDigit := by
  induction text with
  | nil =>
    cases rest with
    | nil => rfl
    | cons c rest => simp [(h c rfl).1]
  | cons c text ih => rw [List.cons_append, List.takeWhile_cons, List.takeWhile_cons, ih]

theorem EndsNumeral.dropWhile (h : EndsNumeral rest) (text : List Char) :
    (text ++ rest).dropWhile Char.isDigit = text.dropWhile Char.isDigit ++ rest := by
  induction text with
  | nil =>
    cases rest with
    | nil => rfl
    | cons c rest => simp [(h c rfl).1]
  | cons c text ih =>
    rw [List.cons_append, List.dropWhile_cons, List.dropWhile_cons, ih]
    split <;> rfl

/-! ## Parts of a numeral -/

theorem EndsNumeral.readWhole? (h : EndsNumeral rest) : ReadsBefore readWhole? rest := by
  intro text left digits hread
  unfold Json.readWhole? at hread ⊢
  rw [h.takeWhile, h.dropWhile]
  split at hread <;> cases hread <;> simp_all

theorem EndsNumeral.readPlaces? (h : EndsNumeral rest) : ReadsBefore readPlaces? rest := by
  intro text left places hread
  unfold Json.readPlaces? at hread
  split at hread
  · rename_i text
    rw [List.cons_append, Json.readPlaces?, h.takeWhile, h.dropWhile]
    split at hread <;> cases hread
    simp_all
  · rename_i hpoint
    cases hread
    unfold Json.readPlaces?
    split
    · rename_i heq
      cases text with
      | nil =>
        rw [List.nil_append] at heq
        exact absurd rfl (h '.' (by rw [heq]; rfl)).2.1
      | cons c text => exact absurd (congrArg (· :: text) (List.cons.inj heq).1) (hpoint text)
    · rfl

theorem splitSign_append {text : List Char} (h : text ≠ []) (rest : List Char) :
    Decimal.splitSign (text ++ rest) =
      ((Decimal.splitSign text).1, (Decimal.splitSign text).2 ++ rest) := by
  obtain ⟨c, text, rfl⟩ := List.exists_cons_of_ne_nil h
  by_cases hminus : c = '-'
  · subst hminus
    rfl
  by_cases hplus : c = '+'
  · subst hplus
    rfl
  · simp [Decimal.splitSign, hminus, hplus]

/-- The exponent behind its mark: a sign and digits. -/
theorem readPower?_cons (mark : Char) (text : List Char) :
    readPower? (mark :: text) =
      if mark != 'e' && mark != 'E' then some (none, mark :: text)
      else
        match (Decimal.splitSign text).2.takeWhile Char.isDigit with
        | [] => none
        | digits => some (some (if (Decimal.splitSign text).1 then -(Decimal.ofDigits digits : Int)
            else Decimal.ofDigits digits), (Decimal.splitSign text).2.dropWhile Char.isDigit) := rfl

theorem EndsNumeral.readPower? (h : EndsNumeral rest) : ReadsBefore readPower? rest := by
  intro text left power hread
  cases text with
  | nil =>
    cases hread
    cases rest with
    | nil => rfl
    | cons c rest => simp [Json.readPower?, (h c rfl).2.2]
  | cons mark text =>
    rw [List.cons_append]
    rw [readPower?_cons] at hread ⊢
    split at hread
    · cases hread
      rw [if_pos ‹_›]
      rfl
    · have htext : text ≠ [] := by
        rintro rfl
        cases hread
      rw [if_neg ‹_›, splitSign_append htext, h.takeWhile, h.dropWhile]
      split at hread <;> cases hread
      simp_all

/-! ## Numerals -/

/-- A numeral behind its sign. -/
def readUnsigned? (negative : Bool) : Reader Number :=
  readThen Json.readWhole? fun whole => readThen Json.readPlaces? fun places =>
    readThen Json.readPower? fun power text =>
      (numberOf? negative whole places power).bind fun value => some (value, text)

theorem EndsNumeral.readUnsigned? (h : EndsNumeral rest) (negative : Bool) :
    ReadsBefore (readUnsigned? negative) rest := by
  refine h.readWhole?.readThen fun whole => h.readPlaces?.readThen fun places =>
    h.readPower?.readThen fun power => ?_
  intro text left value hread
  obtain ⟨made, hmade, heq⟩ := Option.bind_eq_some_iff.1 hread
  cases heq
  exact Option.bind_eq_some_iff.2 ⟨value, hmade, rfl⟩

theorem readNumber?_minus (text : List Char) :
    readNumber? ('-' :: text) = readUnsigned? true text := rfl

theorem readNumber?_of_ne {c : Char} (h : c ≠ '-') (text : List Char) :
    readNumber? (c :: text) = readUnsigned? false (c :: text) := by
  unfold Json.readNumber?
  split
  rename_i heq
  split at heq
  · exact absurd (List.cons.inj ‹_›).1 h
  · cases heq
    rfl

/-- A numeral starts with a sign or a digit. -/
theorem exists_cons_of_readNumber? {text left : List Char} {value : Number}
    (h : readNumber? text = some (value, left)) :
    ∃ c more, text = c :: more ∧ (c = '-' ∨ c.isDigit = true) := by
  cases text with
  | nil => cases h
  | cons c text =>
    by_cases hsign : c = '-'
    · exact ⟨c, text, rfl, .inl hsign⟩
    rw [readNumber?_of_ne hsign] at h
    obtain ⟨⟨whole, more⟩, hwhole, -⟩ := Option.bind_eq_some_iff.1 h
    cases hdigit : c.isDigit with
    | true => exact ⟨c, text, rfl, .inr hdigit⟩
    | false => simp [Json.readWhole?, hdigit] at hwhole

/-- A numeral is read the same whatever follows it. -/
theorem EndsNumeral.readNumber? (h : EndsNumeral rest) : ReadsBefore readNumber? rest := by
  intro text left value hread
  obtain ⟨c, text, rfl, -⟩ := exists_cons_of_readNumber? hread
  by_cases hsign : c = '-'
  · subst hsign
    rw [readNumber?_minus] at hread
    rw [List.cons_append, readNumber?_minus]
    exact h.readUnsigned? true hread
  · rw [readNumber?_of_ne hsign] at hread
    rw [List.cons_append, readNumber?_of_ne hsign]
    exact h.readUnsigned? false hread

end CatalogSearch.Json
