import CatalogSearch.Text.Characters
import Mathlib.Data.List.TakeWhile

/-!
# White space at the ends of text

Trimming leaves a text as it is just if no white space stands at either end of it.
-/

namespace CatalogSearch.Text

theorem trimRight_sublist (text : List Char) : List.Sublist (trimRight text) text := by
  rw [← List.reverse_sublist, trimRight, List.reverse_reverse]
  exact List.dropWhile_sublist isBlank

theorem trim_sublist (text : List Char) : List.Sublist (trim text) text :=
  (trimRight_sublist _).trans (List.dropWhile_sublist isBlank)

theorem trimLeft_eq_self_iff {text : List Char} :
    trimLeft text = text ↔ ∀ c ∈ text.head?, isBlank c = false := by
  rw [trimLeft, List.dropWhile_eq_self_iff]
  cases text <;> simp

theorem trimRight_eq_self_iff {text : List Char} :
    trimRight text = text ↔ ∀ c ∈ text.getLast?, isBlank c = false := by
  rw [trimRight, List.reverse_eq_iff, ← trimLeft, trimLeft_eq_self_iff, List.head?_reverse]

/-- Text that loses nothing at both ends loses nothing at either of them. -/
theorem trimLeft_eq_self {text : List Char} (h : trim text = text) : trimLeft text = text := by
  have hright := trimRight_sublist (trimLeft text)
  rw [← trim, h] at hright
  exact (List.dropWhile_sublist isBlank).eq_of_length_le hright.length_le

theorem trimRight_eq_self {text : List Char} (h : trim text = text) : trimRight text = text := by
  unfold trim at h
  rwa [trimLeft_eq_self h] at h

theorem trim_eq_self_iff {text : List Char} :
    trim text = text ↔
      (∀ c ∈ text.head?, isBlank c = false) ∧ ∀ c ∈ text.getLast?, isBlank c = false := by
  rw [← trimLeft_eq_self_iff, ← trimRight_eq_self_iff]
  constructor
  · intro h
    exact ⟨trimLeft_eq_self h, trimRight_eq_self h⟩
  · rintro ⟨hleft, hright⟩
    rw [trim, hleft, hright]

theorem trim_cons_concat {first last : Char} (hfirst : isBlank first = false)
    (hlast : isBlank last = false) (middle : List Char) :
    trim (first :: (middle ++ [last])) = first :: (middle ++ [last]) := by
  rw [trim_eq_self_iff]
  simp [List.getLast?_cons, hfirst, hlast]

theorem trim_eq_self_of_forall {text : List Char} (h : ∀ c ∈ text, isBlank c = false) :
    trim text = text :=
  trim_eq_self_iff.2 ⟨fun c hc => h c (List.mem_of_mem_head? hc),
    fun c hc => h c (List.mem_of_mem_getLast? hc)⟩

end CatalogSearch.Text
