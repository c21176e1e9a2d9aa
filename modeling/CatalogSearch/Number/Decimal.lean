import CatalogSearch.Number.Double

/-!
# Decimal numerals

A decimal numeral is a natural number of digits moved by a power of ten.  This
module reads one from text, takes it to the nearest double, and takes a double
back to the shortest numeral that still reads as that double.
-/

namespace CatalogSearch

/-- The number `digits` times ten to the power `exponent`. -/
structure Decimal where
  digits : Nat
  exponent : Int
deriving DecidableEq, Repr

namespace Decimal

/-- The double nearest to a decimal.  Past four hundred places beyond the digits
at hand the answer is infinity or zero, whatever the digits are. -/
def toDouble (negative : Bool) (value : Decimal) : Double :=
  if value.digits = 0 then Double.zero negative
  else if 400 < value.exponent then Double.ofMagnitude negative Double.infinity
  else if value.exponent < -(400 + (value.digits.log2 : Int)) then Double.zero negative
  else if 0 ≤ value.exponent then
    Double.ofRatio negative (value.digits * Nat.pow 10 value.exponent.toNat) 1
  else
    Double.ofRatio negative value.digits (Nat.pow 10 (-value.exponent).toNat)

/-- Which of two equally near numerals is taken. -/
inductive Tie
  | toEven
  | away
deriving DecidableEq, Repr

/-- The value of a run of decimal digits. -/
def ofDigits (text : List Char) : Nat :=
  text.foldl (fun value c => 10 * value + (c.toNat - '0'.toNat)) 0

/-- The optional exponent at the end of a numeral, zero when there is none. -/
def readExponent? : List Char → Option Int
  | [] => some 0
  | mark :: rest =>
    if mark.toLower != 'e' then none
    else
      let (negative, digits) := match rest with
        | '-' :: digits => (true, digits)
        | '+' :: digits => (false, digits)
        | digits => (false, digits)
      if digits.isEmpty || !digits.all Char.isDigit then none
      else some (if negative then -(ofDigits digits : Int) else ofDigits digits)

/-- The text of a numeral split at its sign. -/
def splitSign : List Char → Bool × List Char
  | '-' :: rest => (true, rest)
  | '+' :: rest => (false, rest)
  | rest => (false, rest)

/-- The sign and the value of a numeral: an optional sign, digits with at most
one point among or beside them, and an optional exponent. -/
def read? (text : List Char) : Option (Bool × Decimal) := do
  let (negative, text) := splitSign text
  let whole := text.takeWhile Char.isDigit
  let rest := text.dropWhile Char.isDigit
  let (places, rest) := match rest with
    | '.' :: rest => (rest.takeWhile Char.isDigit, rest.dropWhile Char.isDigit)
    | rest => ([], rest)
  if whole.isEmpty && places.isEmpty then none
  else
    let exponent ← readExponent? rest
    some (negative, ⟨ofDigits (whole ++ places), exponent - places.length⟩)

/-- The double that a numeral denotes. -/
def readDouble? (text : List Char) : Option Double :=
  (read? text).map fun (negative, value) => value.toDouble negative

/-- The same decimal without trailing zeros among its digits. -/
def normalize (fuel : Nat) (value : Decimal) : Decimal :=
  match fuel with
  | 0 => value
  | fuel + 1 =>
    if value.digits != 0 && value.digits % 10 == 0 then
      normalize fuel ⟨value.digits / 10, value.exponent + 1⟩
    else value

end Decimal

namespace Double

/-- The reals that round to a finite double other than zero, and the double
itself, as numerators over one common denominator. -/
structure Neighbourhood where
  low : Nat
  value : Nat
  high : Nat
  denominator : Nat
  closed : Bool

def neighbourhood (x : Double) : Neighbourhood :=
  let (significand, exponent) := x.parts
  let scale := 1 <<< exponent
  let below := if significand = fractionLimit && 0 < exponent then 1 else 2
  { low := (4 * significand - below) * scale
    value := 4 * significand * scale
    high := (4 * significand + 2) * scale
    denominator := 4 * unitInverse
    closed := significand % 2 = 0 }

namespace Neighbourhood

/-- Whether a numeral with a given last place lies in the neighbourhood, that
is, reads back as the double. -/
def holds (near : Neighbourhood) (digits numeratorScale denominatorScale : Nat) : Bool :=
  let point := digits * denominatorScale * near.denominator
  let low := near.low * numeratorScale
  let high := near.high * numeratorScale
  if near.closed then low ≤ point && point ≤ high else low < point && point < high

/-- The numeral nearest to the double among those with a given last place that
lie in its neighbourhood. -/
def nearest? (near : Neighbourhood) (tie : Decimal.Tie) (lastPlace : Int) : Option Decimal :=
  let numeratorScale := Nat.pow 10 (-lastPlace).toNat
  let denominatorScale := Nat.pow 10 lastPlace.toNat
  let numerator := near.value * numeratorScale
  let denominator := near.denominator * denominatorScale
  let below := numerator / denominator
  let twice := 2 * (numerator % denominator)
  let lower : Decimal := ⟨below, lastPlace⟩
  let upper : Decimal := ⟨below + 1, lastPlace⟩
  match near.holds below numeratorScale denominatorScale,
      near.holds (below + 1) numeratorScale denominatorScale with
  | true, false => some lower
  | false, true => some upper
  | false, false => none
  | true, true =>
    if twice < denominator then some lower
    else if denominator < twice then some upper
    else if tie = Decimal.Tie.toEven && below % 2 = 0 then some lower
    else some upper

/-- The position of the decimal point relative to the first digit: one for a
value from one to ten. -/
def leadingPlace (near : Neighbourhood) : Int :=
  (Nat.toDigits 10 (near.value * Nat.pow 10 400 / near.denominator)).length - 400

/-- The nearest numeral with the fewest digits, from `digits` digits on. -/
def fewest (near : Neighbourhood) (tie : Decimal.Tie) (digits : Nat) : Nat → Decimal
  | 0 => (near.nearest? tie (near.leadingPlace - digits)).getD ⟨0, 0⟩
  | fuel + 1 =>
    match near.nearest? tie (near.leadingPlace - digits) with
    | some value => value
    | none => fewest near tie (digits + 1) fuel

end Neighbourhood

/-- The numeral with the fewest digits that reads back as a finite double, and
of these the nearest to it.  Seventeen digits always suffice. -/
def shortest (tie : Decimal.Tie) (x : Double) : Decimal :=
  if x.magnitude.val = 0 then ⟨0, 0⟩
  else (x.neighbourhood.fewest tie 1 16).normalize 17

end Double

end CatalogSearch
