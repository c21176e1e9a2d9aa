/-!
# Random identifiers

An identifier is written as thirty-two hexadecimal digits in five groups, of which
one digit tells the version and two bits the variant; the rest is random.
-/

namespace CatalogSearch.Identifier

/-- The lowest digits of a word in base sixteen, the highest of them first. -/
def hexDigits (count : Nat) (word : Nat) : List Char :=
  (List.range count).reverse.map fun place => Nat.digitChar (word >>> (4 * place) % 16)

/-- The identifier of two random words of sixty-four bits. -/
def ofWords (high low : Nat) : String :=
  let first := hexDigits 8 (high >>> 32)
  let second := hexDigits 4 (high >>> 16)
  let third := '4' :: hexDigits 3 high
  let fourth := Nat.digitChar (8 + low >>> 60 % 4) :: hexDigits 3 (low >>> 48)
  let fifth := hexDigits 12 low
  String.ofList (List.intercalate ['-'] [first, second, third, fourth, fifth])

end CatalogSearch.Identifier
