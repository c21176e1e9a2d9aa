import CatalogSearch.Cql.Token
import CatalogSearch.Number.Notation

/-!
# Writing query text

A filter is written with the fewest parentheses that keep its grouping.  Empty
operands vanish, and a group left with one operand is written as that operand.
Names, texts and instants are quoted unless they read back as they are.
-/

namespace CatalogSearch.Cql

/-- Text between quotes, each quote inside it doubled. -/
def quote (mark : Char) (text : List Char) : List Char :=
  mark :: (text.flatMap fun c => if c = mark then [c, c] else [c]) ++ [mark]

/-- Whether a property name is written as it is: an ASCII word that is no
keyword. -/
def isPlainName (name : List Char) : Bool :=
  match name with
  | [] => false
  | first :: rest =>
    (first.isAlpha || first == '_') &&
      rest.all (fun c => c.isAlphanum || c == '_' || c == '.') && !isReserved name

def writeName (name : String) : List Char :=
  if isPlainName name.toList then name.toList else quote '"' name.toList

/-- The name of a property in query text. -/
def quoteProperty (name : String) : String := String.ofList (writeName name)

def writeBool (value : Bool) : List Char := (if value then "true" else "false").toList

def writeLiteral : Literal → List Char
  | .text value => quote '\'' value.toList
  | .number value => value.plain
  | .bool value => writeBool value

/-- Whether an instant is written as it is: literal characters after a digit. -/
def isBareInstant (instant : List Char) : Bool :=
  match instant with
  | [] => false
  | first :: rest => first.isDigit && rest.all Token.isLiteral

def writeInstant (instant : List Char) : List Char :=
  if isBareInstant instant then instant else quote '\'' instant

/-- The text of a filter that is not empty, and whether it joins operands, so
that it needs parentheses inside another group. -/
structure Phrase where
  text : List Char
  joins : Bool
deriving DecidableEq, Repr

namespace Phrase

def inParentheses (text : List Char) : List Char := '(' :: text ++ [')']

/-- The text of the phrase as an operand of a group. -/
def asOperand (phrase : Phrase) : List Char :=
  if phrase.joins then inParentheses phrase.text else phrase.text

/-- The group of some phrases, if there are any. -/
def group? (separator : String) : List Phrase → Option Phrase
  | [] => none
  | [phrase] => some phrase
  | phrases => some ⟨List.intercalate separator.toList (phrases.map asOperand), true⟩

end Phrase

/-- A leaf: a property, a keyword or an operator, and its right-hand side. -/
def writeLeaf (property : String) (operator : String) (value : List Char) : Phrase :=
  ⟨writeName property ++ ' ' :: operator.toList ++ ' ' :: value, false⟩

/-- A predicate on the geometry of a property, with its further arguments. -/
def writeCall (function : String) (property : String) (arguments : List (List Char)) : Phrase :=
  ⟨function.toList ++ Phrase.inParentheses
    (List.intercalate [',', ' '] (writeName property :: arguments)), false⟩

mutual

/-- The phrase of a filter, or nothing if it is empty. -/
def phrase? : Filter → Option Phrase
  | .and operands => Phrase.group? " AND " (phrases operands)
  | .or operands => Phrase.group? " OR " (phrases operands)
  | .not operand => (phrase? operand).map fun inner =>
    ⟨"NOT ".toList ++ Phrase.inParentheses inner.text, false⟩
  | .compare property comparison value =>
    some (writeLeaf property comparison.symbol (writeLiteral value))
  | .between property lower upper =>
    some (writeLeaf property "BETWEEN"
      (writeLiteral lower ++ " AND ".toList ++ writeLiteral upper))
  | .isNull property => some (writeLeaf property "IS" "NULL".toList)
  | .before property instant => some (writeLeaf property "BEFORE" (writeInstant instant.toList))
  | .after property instant => some (writeLeaf property "AFTER" (writeInstant instant.toList))
  | .during property start finish =>
    some (writeLeaf property "DURING" (writeInstant (start.toList ++ '/' :: finish.toList)))
  | .intersects property geometry => some (writeCall "INTERSECTS" property [geometry.toList])
  | .within property geometry distance units =>
    some (writeCall "DWITHIN" property [geometry.toList, distance.plain, units.toList])

/-- The phrases of the operands that are not empty. -/
def phrases : List Filter → List Phrase
  | [] => []
  | operand :: operands =>
    match phrase? operand with
    | none => phrases operands
    | some phrase => phrase :: phrases operands

end

/-- The characters of a filter in query text. -/
def write (filter : Filter) : List Char :=
  match phrase? filter with
  | none => []
  | some phrase => phrase.text

/-- A filter in query text; an empty one is the empty text. -/
def toText (filter : Filter) : String := String.ofList (write filter)

end CatalogSearch.Cql
