import CatalogSearch.Cql.Fault
import CatalogSearch.Cql.Filter
import CatalogSearch.Number.Decimal
import CatalogSearch.Text.Characters

/-!
# Tokens of query text

A text is cut into tokens, each of which keeps the characters it was read from
and the white space skipped before it, so that nothing of the text is lost.
-/

namespace CatalogSearch.Cql

namespace Token

inductive Kind
  | word (name : String)
  | quotedName (name : String)
  | text (value : String)
  | number (value : Double)
  | instant (value : String)
  | comparison (operator : Comparison)
  | openParenthesis
  | closeParenthesis
  | comma
deriving DecidableEq, Repr

end Token

structure Token where
  /-- The byte at which the token starts. -/
  start : Nat
  /-- The white space before it. -/
  blanks : List Char
  /-- The characters it consists of. -/
  lexeme : List Char
  kind : Token.Kind
deriving DecidableEq, Repr

/-- The words that cannot name a property unless quoted. -/
def keywords : List String :=
  ["AND", "OR", "NOT", "LIKE", "ILIKE", "BETWEEN", "IS", "NULL", "BEFORE", "AFTER", "DURING",
    "INTERSECTS", "DWITHIN", "TRUE", "FALSE"]

/-- Whether a word is a keyword, in any ASCII case. -/
def isReserved (word : List Char) : Bool :=
  keywords.any fun keyword => Text.sameWord keyword.toList word

namespace Token

/-- The byte after the last one of the token. -/
def stop (token : Token) : Nat := token.start + Text.width token.lexeme

def isKeyword (token : Token) (keyword : String) : Bool :=
  match token.kind with
  | .word name => Text.sameWord keyword.toList name.toList
  | _ => false

/-- Characters of a word after the first. -/
def continuesWord (c : Char) : Bool :=
  Text.isAlphanumeric c || c == '_' || c == '.' || c == ':'

def startsWord (c : Char) : Bool := Text.isAlphabetic c || c == '_'

/-- Characters of numbers and instants. -/
def isLiteral (c : Char) : Bool :=
  c.isAlphanum || c == '-' || c == '+' || c == ':' || c == '.' || c == '/'

/-- Whether a number or an instant starts here: with a digit, or with a sign or a
point right before one. -/
def startsLiteral (c : Char) (rest : List Char) : Bool :=
  c.isDigit ||
    ((c == '-' || c == '+' || c == '.') &&
      match rest with
      | next :: _ => next.isDigit
      | [] => false)

/-- The value of a run of literal characters: a number if it reads as a finite
one, else an instant. -/
def literalKind (lexeme : List Char) : Kind :=
  match Decimal.readDouble? lexeme with
  | some value => if value.isFinite then .number value else .instant (String.ofList lexeme)
  | none => .instant (String.ofList lexeme)

/-- The text up to a closing quote, in which a doubled quote stands for one, and
the number of characters read, the closing quote included. -/
def unquote (quote : Char) : List Char → Option (List Char × Nat)
  | [] => none
  | c :: rest =>
    if c = quote then
      match rest with
      | next :: rest =>
        if next = quote then (unquote quote rest).map fun (text, count) => (quote :: text, count + 2)
        else some ([], 1)
      | [] => some ([], 1)
    else (unquote quote rest).map fun (text, count) => (c :: text, count + 1)

/-- The operator that starts with one of `<`, `>` and `!`, and the number of
characters after the first. -/
def comparison? (first : Char) (rest : List Char) : Option (Comparison × Nat) :=
  match first, rest with
  | '<', '=' :: _ => some (.lessOrEqual, 1)
  | '<', '>' :: _ => some (.notEqual, 1)
  | '<', _ => some (.less, 0)
  | '>', '=' :: _ => some (.greaterOrEqual, 1)
  | '>', _ => some (.greater, 0)
  | '!', '=' :: _ => some (.notEqual, 1)
  | _, _ => none

/-- The kind of the token that starts with a character, and the number of
characters it takes after that one. -/
def scan (first : Char) (rest : List Char) : Except Problem (Kind × Nat) :=
  if first = '(' then .ok (.openParenthesis, 0)
  else if first = ')' then .ok (.closeParenthesis, 0)
  else if first = ',' then .ok (.comma, 0)
  else if first = '=' then .ok (.comparison .equal, 0)
  else if first = '<' || first = '>' || first = '!' then
    match comparison? first rest with
    | some (operator, count) => .ok (.comparison operator, count)
    | none => .error (.unexpectedCharacter first)
  else if first = '\'' then
    match unquote '\'' rest with
    | some (text, count) => .ok (.text (String.ofList text), count)
    | none => .error .unterminatedQuote
  else if first = '"' then
    match unquote '"' rest with
    | some (text, count) => .ok (.quotedName (String.ofList text), count)
    | none => .error .unterminatedQuote
  else if startsLiteral first rest then
    let more := rest.takeWhile isLiteral
    .ok (literalKind (first :: more), more.length)
  else if startsWord first then
    let more := rest.takeWhile continuesWord
    .ok (.word (String.ofList (first :: more)), more.length)
  else .error (.unexpectedCharacter first)

end Token

/-- The tokens of a text whose first byte stands at `position`. -/
def tokens (position : Nat) (text : List Char) : Except Fault (List Token) :=
  match _h : text.dropWhile Text.isBlank with
  | [] => .ok []
  | first :: rest =>
    let blanks := text.takeWhile Text.isBlank
    let start := position + Text.width blanks
    match Token.scan first rest with
    | .error problem => .error ⟨some start, problem⟩
    | .ok (kind, count) =>
      let token : Token := ⟨start, blanks, first :: rest.take count, kind⟩
      match tokens token.stop (rest.drop count) with
      | .error fault => .error fault
      | .ok more => .ok (token :: more)
termination_by text.length
decreasing_by
  have hle : (first :: rest).length ≤ text.length := by
    rw [← _h]
    exact (List.dropWhile_sublist _).length_le
  have : (rest.drop count).length ≤ rest.length := by simp
  simp only [List.length_cons] at hle
  omega

end CatalogSearch.Cql
