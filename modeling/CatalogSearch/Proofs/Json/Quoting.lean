import CatalogSearch.Json.Reader
import CatalogSearch.Json.Writer

/-!
# Strings in structured text

Whatever characters a string has, it is read as it was written: each escape stands for
the character that was escaped, and an escape never takes in what follows it.
-/

namespace CatalogSearch.Json

/-! ## Codes -/

theorem hexValue?_digitChar : ∀ digit < 16, hexValue? (Nat.digitChar digit) = some digit := by
  decide

/-- The escape of a control character holds its code. -/
theorem hexUnit?_of_lt {code : Nat} (h : code < 32) :
    hexUnit? '0' '0' (Nat.digitChar (code / 16)) (Nat.digitChar (code % 16)) = some code := by
  have hzero : hexValue? '0' = some 0 := rfl
  have hhigh := hexValue?_digitChar (code / 16) (by omega)
  have hlow := hexValue?_digitChar (code % 16) (by omega)
  simp only [hexUnit?, hzero, hhigh, hlow, Option.bind_eq_bind, Option.bind_some, Option.pure_def,
    Option.some.injEq]
  omega

/-- What is no hexadecimal digit is refused. -/
theorem readCharacters_of_hexUnit?_eq_none {a b c d : Char} (h : hexUnit? a b c d = none)
    (rest : List Char) : readCharacters ('\\' :: 'u' :: a :: b :: c :: d :: rest) = none := by
  rw [readCharacters.eq_def]
  split <;> rename_i heq <;> cases heq
  · rw [h]
    rfl
  · rw [h]
    rfl
  · rename_i hother
    exact absurd rfl (hother _ _ _ _ _ rfl)
  · rename_i hother
    exact absurd rfl (hother _ _ rfl)

/-! ## Escapes -/

theorem readCharacters_unit {a b c d : Char} {code : Nat} (h : hexUnit? a b c d = some code)
    (hhigh : isHighSurrogate code = false) (hlow : isLowSurrogate code = false)
    (rest : List Char) :
    readCharacters ('\\' :: 'u' :: a :: b :: c :: d :: rest) =
      (readCharacters rest).map fun (text, rest) => (Char.ofNat code :: text, rest) := by
  rw [readCharacters.eq_def]
  split <;> rename_i heq <;> cases heq
  · -- Another code follows, which is read for a second half and then once more.
    rename_i e f g k rest
    simp only [h, hhigh, hlow, Option.bind_eq_bind, Option.bind_some, Bool.false_eq_true, if_false]
    cases hnext : hexUnit? e f g k with
    | none =>
      rw [readCharacters_of_hexUnit?_eq_none hnext]
      rfl
    | some next => cases readCharacters ('\\' :: 'u' :: e :: f :: g :: k :: rest) <;> rfl
  · simp only [h, hhigh, hlow, Option.bind_eq_bind, Option.bind_some, Bool.false_eq_true, if_false,
      Bool.or_self]
    cases readCharacters rest <;> rfl
  · rename_i hother
    exact absurd rfl (hother _ _ _ _ _ rfl)
  · rename_i hother
    exact absurd rfl (hother _ _ rfl)

theorem readCharacters_letter {letter c : Char} (hletter : letter ≠ 'u')
    (h : escapedLetter? letter = some c) (rest : List Char) :
    readCharacters ('\\' :: letter :: rest) =
      (readCharacters rest).map fun (text, rest) => (c :: text, rest) := by
  rw [readCharacters, h]
  · cases readCharacters rest <;> rfl
  · exact fun _ _ _ _ _ _ _ _ _ hu => absurd hu hletter
  · exact fun _ _ _ _ _ hu => absurd hu hletter

theorem readCharacters_plain {c : Char} (hquote : c ≠ '"') (hslash : c ≠ '\\')
    (hcode : ¬c.toNat < 32) (rest : List Char) :
    readCharacters (c :: rest) =
      (readCharacters rest).map fun (text, rest) => (c :: text, rest) := by
  rw [readCharacters, if_neg (by simp [hslash, hcode])]
  · cases readCharacters rest <;> rfl
  all_goals simp [hslash, hquote]

/-- What stands for a character is read as that character. -/
theorem readCharacters_escaped (c : Char) (rest : List Char) :
    readCharacters (escaped c ++ rest) =
      (readCharacters rest).map fun (text, rest) => (c :: text, rest) := by
  have hletter : ∀ {letter : Char} {code : Nat}, c.toNat = code → letter ≠ 'u' →
      escapedLetter? letter = some (Char.ofNat code) →
        readCharacters (['\\', letter] ++ rest) =
          (readCharacters rest).map fun (text, rest) => (c :: text, rest) := by
    rintro letter _ rfl hne h
    rw [Char.ofNat_toNat] at h
    exact readCharacters_letter hne h rest
  unfold escaped
  split
  · exact hletter (congrArg Char.toNat ‹c = '"'›) (by decide) rfl
  split
  · exact hletter (congrArg Char.toNat ‹c = '\\'›) (by decide) rfl
  split
  · exact hletter ‹c.toNat = 8› (by decide) rfl
  split
  · exact hletter ‹c.toNat = 9› (by decide) rfl
  split
  · exact hletter ‹c.toNat = 10› (by decide) rfl
  split
  · exact hletter ‹c.toNat = 12› (by decide) rfl
  split
  · exact hletter ‹c.toNat = 13› (by decide) rfl
  split
  · rename_i hcode
    have hunit := readCharacters_unit (hexUnit?_of_lt hcode) (by simp [isHighSurrogate]; omega)
      (by simp [isLowSurrogate]; omega) rest
    rwa [Char.ofNat_toNat] at hunit
  · exact readCharacters_plain ‹¬c = '"'› ‹¬c = '\\'› ‹¬c.toNat < 32› rest

/-- A string is read up to its closing quote. -/
theorem readCharacters_writeEscaped (text rest : List Char) :
    readCharacters (writeEscaped text ('"' :: rest)) = some (text, rest) := by
  induction text with
  | nil => rfl
  | cons c text ih =>
    rw [writeEscaped, readCharacters_escaped, ih]
    rfl

end CatalogSearch.Json
