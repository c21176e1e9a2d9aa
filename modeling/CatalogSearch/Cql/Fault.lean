/-!
# Faults in query text

Why a text is no query, and where.  Positions count UTF-8 bytes; a fault noticed
when the text had run out carries no position of its own and lies at its end.
-/

namespace CatalogSearch.Cql

/-- What the reader of a query was looking for. -/
inductive Expectation
  | predicate
  | openParenthesis
  | closeParenthesis
  | comma
  | distance
  | units
  | patternOperator
  | conjunction
  | null
  | operator
  | property
  | literal
  | pattern
  | instant
  | geometry
deriving DecidableEq, Repr

namespace Expectation

def name : Expectation → String
  | predicate => "a predicate"
  | openParenthesis => "'('"
  | closeParenthesis => "')'"
  | comma => "','"
  | distance => "a distance"
  | units => "distance units"
  | patternOperator => "LIKE or ILIKE after NOT"
  | conjunction => "AND"
  | null => "NULL"
  | operator => "a comparison operator"
  | property => "a property name"
  | literal => "a literal value"
  | pattern => "a quoted pattern"
  | instant => "a timestamp"
  | geometry => "a WKT geometry"

end Expectation

inductive Problem
  | unexpectedCharacter (c : Char)
  | unterminatedQuote
  | unexpectedEnd
  | trailingInput
  | nestingTooDeep
  | undividedPeriod
  | expected (what : Expectation)
deriving DecidableEq, Repr

/-- How deep negations and parentheses may nest in query text. -/
def nestingLimit : Nat := 128

namespace Problem

def message : Problem → String
  | unexpectedCharacter c => "unexpected character '" ++ c.toString ++ "'."
  | unterminatedQuote => "unterminated quoted literal."
  | unexpectedEnd => "unexpected end of input."
  | trailingInput => "unexpected trailing input."
  | nestingTooDeep => "nesting exceeds " ++ toString nestingLimit ++ " levels."
  | undividedPeriod => "DURING expects '<start>/<end>'."
  | expected what => "expected " ++ what.name ++ "."

end Problem

/-- A problem met while reading, at a byte or at the end of the text. -/
structure Fault where
  place : Option Nat
  problem : Problem
deriving DecidableEq, Repr

/-- A problem at a byte of the text. -/
structure TextError where
  position : Nat
  problem : Problem
deriving DecidableEq, Repr

def TextError.message (error : TextError) : String :=
  "CQL syntax error at byte " ++ toString error.position ++ ": " ++ error.problem.message

/-- The fault of a text of a given number of bytes. -/
def Fault.within (fault : Fault) (size : Nat) : TextError :=
  ⟨fault.place.getD size, fault.problem⟩

end CatalogSearch.Cql
