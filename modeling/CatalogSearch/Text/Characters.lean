import CatalogSearch.Text.Ranges

/-!
# Classes of characters

White space, letters and digits as Unicode classes, comparison of words without
regard to ASCII case, and the width of text in UTF-8.  Each class is decided by
its ASCII members first, so that facts about ASCII text never look into a table.
-/

namespace CatalogSearch.Text

/-- Membership of a code point in a list of closed ranges. -/
def inRanges (ranges : List (Nat × Nat)) (code : Nat) : Bool :=
  ranges.any fun range => range.1 ≤ code && code ≤ range.2

/-- Characters with the Unicode property White_Space. -/
def isBlank (c : Char) : Bool :=
  let code := c.toNat
  (9 ≤ code && code ≤ 13) || code == 32 || code == 0x85 || code == 0xA0 || code == 0x1680 ||
    (0x2000 ≤ code && code ≤ 0x200A) || code == 0x2028 || code == 0x2029 || code == 0x202F ||
    code == 0x205F || code == 0x3000

def isAscii (c : Char) : Bool := c.toNat < 128

/-- Characters with the Unicode property Alphabetic. -/
def isAlphabetic (c : Char) : Bool :=
  if isAscii c then c.isAlpha else inRanges Ranges.alphabetic c.toNat

/-- Alphabetic characters and numbers of every kind. -/
def isAlphanumeric (c : Char) : Bool :=
  if isAscii c then c.isAlphanum
  else inRanges Ranges.alphabetic c.toNat || inRanges Ranges.numeric c.toNat

/-- Text with its ASCII capitals lowered. -/
def lower (text : List Char) : List Char := text.map Char.toLower

/-- Text with its ASCII small letters raised. -/
def upper (text : List Char) : List Char := text.map Char.toUpper

/-- Equality of words up to ASCII case. -/
def sameWord (left right : List Char) : Bool := lower left == lower right

def trimLeft (text : List Char) : List Char := text.dropWhile isBlank

def trimRight (text : List Char) : List Char := (text.reverse.dropWhile isBlank).reverse

/-- Text without the white space at its two ends. -/
def trim (text : List Char) : List Char := trimRight (trimLeft text)

/-- The number of bytes that text takes in UTF-8. -/
def width : List Char → Nat
  | [] => 0
  | c :: rest => c.utf8Size + width rest

@[simp]
theorem width_nil : width [] = 0 := rfl

@[simp]
theorem width_cons (c : Char) (text : List Char) : width (c :: text) = c.utf8Size + width text := rfl

@[simp]
theorem width_append (left right : List Char) :
    width (left ++ right) = width left + width right := by
  induction left with
  | nil => rw [List.nil_append, width_nil, Nat.zero_add]
  | cons c left ih => rw [List.cons_append, width_cons, width_cons, ih, Nat.add_assoc]

/-- A string without the white space at its two ends. -/
def strip (text : String) : String := String.ofList (trim text.toList)

/-- Whether a string holds white space only. -/
def isBlankString (text : String) : Bool := text.toList.all isBlank

/-- A string with its ASCII capitals lowered. -/
def lowercase (text : String) : String := String.ofList (lower text.toList)

end CatalogSearch.Text
