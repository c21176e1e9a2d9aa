import CatalogSearch.Number.Decimal

/-!
# Writing numbers

Two notations for doubles.  Query text writes them positionally, with no point
when there are no places.  Structured documents always mark them as numbers with
places, and turn to an exponent for the very large and the very small.  Both take
the fewest digits that read back.
-/

namespace CatalogSearch

namespace Decimal

def digitText (value : Decimal) : List Char := Nat.toDigits 10 value.digits

/-- The digits with the point where it belongs, filled up with zeros.  A number
without places gets `whole` after its digits. -/
def positional (whole : List Char) (value : Decimal) : List Char :=
  let digits := value.digitText
  let point := digits.length + value.exponent
  if point ≤ 0 then
    '0' :: '.' :: (List.replicate (-point).toNat '0' ++ digits)
  else if digits.length ≤ point then
    digits ++ List.replicate (point.toNat - digits.length) '0' ++ whole
  else digits.take point.toNat ++ '.' :: digits.drop point.toNat

/-- One digit before the point and a signed exponent after the rest. -/
def scientific (value : Decimal) : List Char :=
  let digits := value.digitText
  let exponent := digits.length + value.exponent - 1
  let places := match digits.tail with
    | [] => []
    | rest => '.' :: rest
  digits.take 1 ++ places ++ 'e' :: (if exponent < 0 then '-' else '+') ::
    Nat.toDigits 10 exponent.natAbs

end Decimal

namespace Double

def signText (x : Double) : List Char := if x.negative then ['-'] else []

/-- A double in query text: the nearest of the shortest numerals, a tie going
away from zero, without exponent. -/
def plain (x : Double) : List Char :=
  if x.isFinite then x.signText ++ (x.shortest .away).positional []
  else if x.magnitude.val = infinity then x.signText ++ ['i', 'n', 'f']
  else ['N', 'a', 'N']

/-- A finite double in a structured document: a tie goes to the even digit, and
the point stays within sixteen digits after the first and five zeros before it. -/
def marked (x : Double) : List Char :=
  let value := x.shortest .toEven
  let point := value.digitText.length + value.exponent
  x.signText ++
    if -5 < point && point ≤ 16 then value.positional ['.', '0'] else value.scientific

end Double

end CatalogSearch
