import CatalogSearch.Toml.Value

/-!
# Numbers and truth values of configuration files

Scalars that are no strings are runs of a few characters: truth values, moments and
numbers.  Integers may be written in four bases, and digits have single underscores
between them.
-/

namespace CatalogSearch.Toml

def isScalar (c : Char) : Bool :=
  c.isAlphanum || c == '_' || c == '+' || c == '-' || c == '.' || c == ':'

/-- Digits of a base with single underscores between them. -/
def digitsOf? (isDigit : Char → Bool) (text : List Char) : Option (List Char) :=
  match text with
  | [] => none
  | [c] => if isDigit c then some [c] else none
  | c :: '_' :: rest => if isDigit c then (digitsOf? isDigit rest).map (c :: ·) else none
  | c :: rest => if isDigit c then (digitsOf? isDigit rest).map (c :: ·) else none

def isHexDigit (c : Char) : Bool := (Json.hexValue? c).isSome

/-- The value of digits in a base up to sixteen. -/
def valueIn (base : Nat) (digits : List Char) : Nat :=
  digits.foldl (fun value c => base * value + (Json.hexValue? c).getD 0) 0

/-- Decimal digits, of which a leading zero must be the only one. -/
def wholeDigits? (text : List Char) : Option (List Char) := do
  let digits ← digitsOf? Char.isDigit text
  if 1 < digits.length && digits.head? == some '0' then none else some digits

/-- The value of a numeral that follows the mark of its base.  Without any digits it
is still a numeral, but has no value. -/
def basedValue? (base : Nat) (isDigit : Char → Bool) : List Char → Option (Option Int)
  | [] => some none
  | digits => (digitsOf? isDigit digits).map fun digits => some (valueIn base digits)

/-- The integer of a run of characters, if it is a numeral. -/
def integer? (text : List Char) : Option (Option Int) :=
  match text with
  | '0' :: 'x' :: rest => basedValue? 16 isHexDigit rest
  | '0' :: 'o' :: rest => basedValue? 8 (fun c => c.isDigit && c < '8') rest
  | '0' :: 'b' :: rest => basedValue? 2 (fun c => c == '0' || c == '1') rest
  | _ =>
    let (negative, text) := Decimal.splitSign text
    (wholeDigits? text).map fun digits =>
      let value : Int := valueIn 10 digits
      some (if negative then -value else value)

/-- The parts of a text around the first of some characters, which starts the
second part. -/
def splitAtFirst (isMark : Char → Bool) (text : List Char) : List Char × List Char :=
  (text.takeWhile (!isMark ·), text.dropWhile (!isMark ·))

/-- The digits of an exponent, with its sign, from behind its mark. -/
def exponent? : List Char → Option (List Char)
  | '+' :: rest => digitsOf? Char.isDigit rest
  | '-' :: rest => (digitsOf? Char.isDigit rest).map ('-' :: ·)
  | rest => digitsOf? Char.isDigit rest

/-- The numeral of a number with places or an exponent, without its underscores. -/
def realNumeral? (text : List Char) : Option (List Char) := do
  let (mantissa, exponent) := splitAtFirst (fun c => c == 'e' || c == 'E') text
  let (whole, places) := splitAtFirst (· == '.') mantissa
  let whole ← wholeDigits? whole
  let places ← match places with
    | [] => some []
    | point :: places => (digitsOf? Char.isDigit places).map (point :: ·)
  let exponent ← match exponent with
    | [] => some []
    | mark :: exponent => (exponent? exponent).map (mark :: ·)
  if places.isEmpty && exponent.isEmpty then none else some (whole ++ places ++ exponent)

/-- The double of a run of characters, which is finite unless it says otherwise.  A
numeral past every finite double has none. -/
def real? (text : List Char) : Option (Option Double) :=
  let (negative, text) := Decimal.splitSign text
  if text = ['i', 'n', 'f'] then some (some (Double.ofMagnitude negative Double.infinity))
  else if text = ['n', 'a', 'n'] then
    some (some ⟨negative, ⟨Double.infinity + 1, by decide⟩⟩)
  else do
    let numeral ← realNumeral? text
    let (_, value) ← Decimal.read? numeral
    let value := value.toDouble negative
    pure (if value.isFinite then some value else none)

/-- The value of a run of characters. -/
def scalar? (text : List Char) : Option Value :=
  if text = ['t', 'r', 'u', 'e'] then some (.flag true)
  else if text = ['f', 'a', 'l', 's', 'e'] then some (.flag false)
  else
    match Moment.ofText? text with
    | some moment => some (.moment moment)
    | none =>
      match integer? text with
      | some value => some (.integer value)
      | none => (real? text).map .real

def isDate (text : List Char) : Bool :=
  match Moment.ofText? text with
  | some (.date _) => true
  | _ => false

/-- A scalar at the front of the text.  A date goes on behind a single space if a
time follows. -/
def readScalar : Reader Value := fun text => do
  let run := text.takeWhile isScalar
  let rest := text.dropWhile isScalar
  let (run, rest) := match rest with
    | ' ' :: c :: more =>
      if isDate run && c.isDigit then
        (run ++ ' ' :: (c :: more).takeWhile isScalar, (c :: more).dropWhile isScalar)
      else (run, rest)
    | _ => (run, rest)
  let value ← scalar? run
  pure (value, rest)

end CatalogSearch.Toml
