import CatalogSearch.Cql.Token

/-!
# Reading query text

A query is a disjunction of conjunctions of negated or plain predicates.  The
reader is recursive descent over the list of tokens; its recursion is on the
number of levels of nesting that are still allowed, which a prefix `NOT` and an
opening parenthesis each use up by one.
-/

namespace CatalogSearch.Cql

/-- A step of the reader: a value and the tokens after it. -/
abbrev Step (α : Type) := List Token → Except Fault (α × List Token)

namespace Step

/-- A fault at the end of the text. -/
def failAtEnd {α : Type} (problem : Problem) : Except Fault α := .error ⟨none, problem⟩

def failAt {α : Type} (token : Token) (problem : Problem) : Except Fault α :=
  .error ⟨some token.start, problem⟩

def missing {α : Type} (token : Token) (what : Expectation) : Except Fault α :=
  failAt token (.expected what)

/-- The next token, whatever it is. -/
def anyToken : Step Token
  | [] => failAtEnd .unexpectedEnd
  | token :: rest => .ok (token, rest)

/-- The next token if it is of a given kind. -/
def punctuation (kind : Token.Kind) (what : Expectation) : Step Unit := fun tokens => do
  let (token, rest) ← anyToken tokens
  if token.kind = kind then .ok ((), rest) else missing token what

def openParenthesis : Step Unit := punctuation .openParenthesis .openParenthesis

def closeParenthesis : Step Unit := punctuation .closeParenthesis .closeParenthesis

def comma : Step Unit := punctuation .comma .comma

def keyword (word : String) (what : Expectation) : Step Unit := fun tokens => do
  let (token, rest) ← anyToken tokens
  if token.isKeyword word then .ok ((), rest) else missing token what

/-- The name of a property: quoted, or a word that is no keyword. -/
def property : Step String := fun tokens => do
  let (token, rest) ← anyToken tokens
  match token.kind with
  | .quotedName name => .ok (name, rest)
  | .word name => if isReserved name.toList then missing token .property else .ok (name, rest)
  | _ => missing token .property

def literal : Step Literal := fun tokens => do
  let (token, rest) ← anyToken tokens
  match token.kind with
  | .text value => .ok (.text value, rest)
  | .number value => .ok (.number value, rest)
  | _ =>
    if token.isKeyword "TRUE" then .ok (.bool true, rest)
    else if token.isKeyword "FALSE" then .ok (.bool false, rest)
    else missing token .literal

/-- The pattern of a comparison with wildcards, which must be quoted. -/
def pattern : Step Literal := fun tokens => do
  let (token, rest) ← anyToken tokens
  match token.kind with
  | .text value => .ok (.text value, rest)
  | _ => missing token .pattern

/-- A point in time or a period; a number counts as written. -/
def instant : Step String := fun tokens => do
  let (token, rest) ← anyToken tokens
  match token.kind with
  | .instant value => .ok (value, rest)
  | .text value => .ok (value, rest)
  | .number _ => .ok (String.ofList token.lexeme, rest)
  | _ => missing token .instant

/-- The two ends of a period, divided at its first slash. -/
def period : Step (String × String) := fun tokens => do
  let (value, rest) ← instant tokens
  let start := value.toList.takeWhile (· != '/')
  match value.toList.dropWhile (· != '/') with
  | _ :: finish => .ok ((String.ofList start, String.ofList finish), rest)
  | [] => .error ⟨tokens.head?.map Token.start, .undividedPeriod⟩

/-- The text up to the parenthesis that closes the current group, in which `depth`
more groups are open. -/
def group (depth : Nat) : Step (List Char)
  | [] => failAtEnd .unexpectedEnd
  | token :: rest =>
    let written := token.blanks ++ token.lexeme
    match token.kind with
    | .openParenthesis => (group (depth + 1) rest).map fun (text, rest) => (written ++ text, rest)
    | .closeParenthesis =>
      match depth with
      | 0 => .ok (written, rest)
      | depth + 1 => (group depth rest).map fun (text, rest) => (written ++ text, rest)
    | _ => (group depth rest).map fun (text, rest) => (written ++ text, rest)

/-- A geometry as written: a word and one group in parentheses. -/
def geometry : Step String := fun tokens => do
  let (head, rest) ← anyToken tokens
  match head.kind with
  | .word _ => do
    let (opening, more) ← anyToken rest
    if opening.kind = .openParenthesis then
      let (text, rest) ← group 0 more
      .ok (String.ofList (head.lexeme ++ opening.blanks ++ opening.lexeme ++ text), rest)
    else missing opening .openParenthesis
  | _ => missing head .geometry

def distance : Step Double := fun tokens => do
  let (token, rest) ← anyToken tokens
  match token.kind with
  | .number value => .ok (value, rest)
  | _ => missing token .distance

def units : Step String := fun tokens => do
  let (token, rest) ← anyToken tokens
  match token.kind with
  | .word name => .ok (name, rest)
  | _ => missing token .units

/-- The comparison with wildcards that a keyword names. -/
def patternOperator? (token : Token) : Option Comparison :=
  if token.isKeyword "LIKE" then some .like
  else if token.isKeyword "ILIKE" then some .ilike
  else none

/-- What is said about a property. -/
def predicate (property : String) : Step Filter := fun tokens => do
  let (token, rest) ← anyToken tokens
  if let .comparison operator := token.kind then
    let (value, rest) ← literal rest
    .ok (.compare property operator value, rest)
  else if token.isKeyword "NOT" then
    let (next, rest) ← anyToken rest
    match patternOperator? next with
    | some operator =>
      let (value, rest) ← pattern rest
      .ok (.not (.compare property operator value), rest)
    | none => missing next .patternOperator
  else if let some operator := patternOperator? token then
    let (value, rest) ← pattern rest
    .ok (.compare property operator value, rest)
  else if token.isKeyword "BETWEEN" then
    let (lower, rest) ← literal rest
    let ((), rest) ← keyword "AND" .conjunction rest
    let (upper, rest) ← literal rest
    .ok (.between property lower upper, rest)
  else if token.isKeyword "IS" then
    match rest with
    | next :: more =>
      if next.isKeyword "NOT" then
        let ((), rest) ← keyword "NULL" .null more
        .ok (.not (.isNull property), rest)
      else
        let ((), rest) ← keyword "NULL" .null rest
        .ok (.isNull property, rest)
    | [] => failAtEnd .unexpectedEnd
  else if token.isKeyword "BEFORE" then
    let (value, rest) ← instant rest
    .ok (.before property value, rest)
  else if token.isKeyword "AFTER" then
    let (value, rest) ← instant rest
    .ok (.after property value, rest)
  else if token.isKeyword "DURING" then
    let ((start, finish), rest) ← period rest
    .ok (.during property start finish, rest)
  else missing token .operator

/-- The arguments of the predicate that geometries intersect. -/
def intersects : Step Filter := fun tokens => do
  let ((), rest) ← openParenthesis tokens
  let (name, rest) ← property rest
  let ((), rest) ← comma rest
  let (geometry, rest) ← geometry rest
  let ((), rest) ← closeParenthesis rest
  .ok (.intersects name geometry, rest)

/-- The arguments of the predicate that geometries lie within a distance. -/
def within : Step Filter := fun tokens => do
  let ((), rest) ← openParenthesis tokens
  let (name, rest) ← property rest
  let ((), rest) ← comma rest
  let (geometry, rest) ← geometry rest
  let ((), rest) ← comma rest
  let (distance, rest) ← distance rest
  let ((), rest) ← comma rest
  let (units, rest) ← units rest
  let ((), rest) ← closeParenthesis rest
  .ok (.within name geometry distance units, rest)

/-- A predicate that is not in parentheses. -/
def primary : Step Filter
  | [] => failAtEnd (.expected .predicate)
  | token :: rest =>
    if token.isKeyword "INTERSECTS" then intersects rest
    else if token.isKeyword "DWITHIN" then within rest
    else do
      let (name, rest) ← property (token :: rest)
      predicate name rest

/-- Further operands, each after a keyword.  The number of steps is bounded by
the number of tokens. -/
def moreOperands (word : String) (operand : Step Filter) : Nat → Step (List Filter)
  | 0, tokens => .ok ([], tokens)
  | _ + 1, [] => .ok ([], [])
  | steps + 1, token :: rest =>
    if token.isKeyword word then do
      let (first, rest) ← operand rest
      let (more, rest) ← moreOperands word operand steps rest
      .ok (first :: more, rest)
    else .ok ([], token :: rest)

/-- Operands with a keyword between them, as one group unless there is just one. -/
def chain (word : String) (join : List Filter → Filter) (operand : Step Filter) : Step Filter :=
  fun tokens => do
    let (first, rest) ← operand tokens
    let (more, rest) ← moreOperands word operand rest.length rest
    match more with
    | [] => .ok (first, rest)
    | _ => .ok (join (first :: more), rest)

/-- A disjunction of conjunctions of operands. -/
def expression (operand : Step Filter) : Step Filter :=
  chain "OR" .or (chain "AND" .and operand)

/-- A negation, an expression in parentheses or a predicate, with `levels` levels
of nesting to go. -/
def operand (levels : Nat) : Step Filter
  | [] => failAtEnd (.expected .predicate)
  | token :: rest =>
    if token.isKeyword "NOT" then
      match levels with
      | 0 => failAt token .nestingTooDeep
      | levels + 1 => do
        let (inner, rest) ← operand levels rest
        .ok (.not inner, rest)
    else if token.kind = .openParenthesis then
      match levels with
      | 0 => failAt token .nestingTooDeep
      | levels + 1 => do
        let (inner, rest) ← expression (operand levels) rest
        let ((), rest) ← closeParenthesis rest
        .ok (inner, rest)
    else primary (token :: rest)

/-- The filter of a whole list of tokens.  No tokens are an empty conjunction. -/
def query (tokens : List Token) : Except Fault Filter :=
  match tokens with
  | [] => .ok (.and [])
  | _ => do
    let (filter, rest) ← expression (operand nestingLimit) tokens
    match rest with
    | [] => .ok filter
    | token :: _ => failAt token .trailingInput

end Step

/-- The filter that a text denotes. -/
def parse (text : String) : Except TextError Filter :=
  match (tokens 0 text.toList).bind Step.query with
  | .ok filter => .ok filter
  | .error fault => .error (fault.within (Text.width text.toList))

end CatalogSearch.Cql
