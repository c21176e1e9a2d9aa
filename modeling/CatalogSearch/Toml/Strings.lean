import CatalogSearch.Json.Reader

/-!
# Keys and strings of configuration files

Strings stand between double quotes, with escapes, or between single quotes, as
they are; three quotes enclose text of several lines, which starts after a line
break right behind them.  A key is a bare word or a string of one line, and a path
is keys with points between them.  Every reader takes its text from the front and
returns what follows it.
-/

namespace CatalogSearch.Toml

abbrev Reader (α : Type) := List Char → Option (α × List Char)

/-- The text after a character that must stand at its front. -/
def expect (c : Char) : List Char → Option (List Char)
  | first :: rest => if first = c then some rest else none
  | [] => none

def isBlank (c : Char) : Bool := c == ' ' || c == '\t'

def skipBlanks (text : List Char) : List Char := text.dropWhile isBlank

/-- Characters that may stand in strings and comments: all but control characters,
of which tabs may. -/
def isPlain (c : Char) : Bool := c == '\t' || (32 ≤ c.toNat && c.toNat != 127)

/-- The text after blanks, line breaks and comments, unless there is a control
character among them. -/
def skipLines (inComment : Bool) : List Char → Option (List Char)
  | [] => some []
  | '\n' :: rest => skipLines false rest
  | '\r' :: '\n' :: rest => skipLines false rest
  | c :: rest =>
    if inComment then if isPlain c then skipLines true rest else none
    else if c = '#' then skipLines true rest
    else if isBlank c then skipLines false rest
    else some (c :: rest)

/-- The rest of a line, which holds at most a comment. -/
def finishLine (text : List Char) : Option (List Char) :=
  match skipBlanks text with
  | [] => some []
  | '\n' :: rest => some rest
  | '\r' :: '\n' :: rest => some rest
  | '#' :: rest =>
    match (rest.dropWhile isPlain) with
    | [] => some []
    | '\n' :: rest => some rest
    | '\r' :: '\n' :: rest => some rest
    | _ => none
  | _ => none

/-- The character that a single letter after a backslash stands for. -/
def escapedLetter? : Char → Option Char
  | '"' => some '"'
  | '\\' => some '\\'
  | 'b' => some (Char.ofNat 8)
  | 'e' => some (Char.ofNat 27)
  | 'f' => some (Char.ofNat 12)
  | 'n' => some '\n'
  | 'r' => some '\r'
  | 't' => some '\t'
  | _ => none

/-- The character of a code point in hexadecimal digits. -/
def codePoint? (digits : List Char) : Option Char := do
  let values ← digits.mapM Json.hexValue?
  let code := values.foldl (fun code value => 16 * code + value) 0
  if code.isValidChar then some (Char.ofNat code) else none

/-- The character of the escape after a backslash, and the number of characters
that the escape takes. -/
def escape? : List Char → Option (Char × Nat)
  | 'x' :: rest => (codePoint? (rest.take 2)).bind fun c =>
    if rest.length < 2 then none else some (c, 3)
  | 'u' :: rest => (codePoint? (rest.take 4)).bind fun c =>
    if rest.length < 4 then none else some (c, 5)
  | 'U' :: rest => (codePoint? (rest.take 8)).bind fun c =>
    if rest.length < 8 then none else some (c, 9)
  | letter :: _ => (escapedLetter? letter).map fun c => (c, 1)
  | [] => none

/-- The characters up to a closing double quote.  The first argument counts
characters that belong to an escape already read. -/
def readBasic (skip : Nat) : Reader (List Char)
  | [] => none
  | c :: rest =>
    match skip with
    | skip + 1 => readBasic skip rest
    | 0 =>
      if c = '"' then some ([], rest)
      else if c = '\\' then do
        let (escaped, length) ← escape? rest
        let (text, rest) ← readBasic length rest
        pure (escaped :: text, rest)
      else if isPlain c then (readBasic 0 rest).map fun (text, rest) => (c :: text, rest)
      else none

/-- The characters up to a closing single quote. -/
def readLiteral : Reader (List Char)
  | [] => none
  | c :: rest =>
    if c = '\'' then some ([], rest)
    else if isPlain c then (readLiteral rest).map fun (text, rest) => (c :: text, rest)
    else none

/-- Up to two quotes right before the three that close a string belong to it. -/
def closing (quote : Char) : List Char → List Char × List Char
  | first :: second :: rest =>
    if first = quote then
      if second = quote then ([quote, quote], rest) else ([quote], second :: rest)
    else ([], first :: second :: rest)
  | [first] => if first = quote then ([quote], []) else ([], [first])
  | [] => ([], [])

/-- What a reader of several lines is in the middle of. -/
inductive LongState
  | content
  /-- Within an escape, with a number of characters to go. -/
  | escape (skip : Nat)
  /-- Between a backslash and the line break it hides. -/
  | lineEnd
  /-- In the white space after a hidden line break. -/
  | lineStart
deriving DecidableEq

/-- The characters up to three double quotes. -/
def readLongBasic (state : LongState) : Reader (List Char)
  | [] => none
  | '"' :: '"' :: '"' :: rest =>
    match state with
    | .escape (skip + 1) => readLongBasic (.escape skip) ('"' :: '"' :: rest)
    | .lineEnd => none
    | _ => some (closing '"' rest)
  | '\r' :: '\n' :: rest =>
    match state with
    | .content | .escape 0 =>
      (readLongBasic .content rest).map fun (text, rest) => ('\r' :: '\n' :: text, rest)
    | .escape _ => none
    | _ => readLongBasic .lineStart rest
  | c :: rest =>
    let keep := fun c => (readLongBasic .content rest).map fun (text, rest) => (c :: text, rest)
    match state with
    | .escape (skip + 1) => readLongBasic (.escape skip) rest
    | .lineEnd =>
      if c = '\n' then readLongBasic .lineStart rest
      else if isBlank c then readLongBasic .lineEnd rest
      else none
    | state =>
      if state = .lineStart && (c = '\n' || isBlank c) then readLongBasic .lineStart rest
      else if c = '\\' then
        match rest with
        | next :: _ =>
          if isBlank next || next = '\n' || next = '\r' then readLongBasic .lineEnd rest
          else do
            let (escaped, length) ← escape? rest
            let (text, rest) ← readLongBasic (.escape length) rest
            pure (escaped :: text, rest)
        | [] => none
      else if c = '\n' || isPlain c then keep c
      else none

/-- The characters up to three single quotes. -/
def readLongLiteral : Reader (List Char)
  | [] => none
  | '\'' :: '\'' :: '\'' :: rest => some (closing '\'' rest)
  | '\r' :: '\n' :: rest =>
    (readLongLiteral rest).map fun (text, rest) => ('\r' :: '\n' :: text, rest)
  | c :: rest =>
    if c = '\n' || isPlain c then
      (readLongLiteral rest).map fun (text, rest) => (c :: text, rest)
    else none

/-- The text without a line break at its front. -/
def skipBreak : List Char → List Char
  | '\n' :: rest => rest
  | '\r' :: '\n' :: rest => rest
  | text => text

/-- A string of any form, if the text starts with a quote. -/
def readString? : List Char → Option (Option (List Char × List Char))
  | '"' :: '"' :: '"' :: rest => some (readLongBasic .content (skipBreak rest))
  | '\'' :: '\'' :: '\'' :: rest => some (readLongLiteral (skipBreak rest))
  | '"' :: rest => some (readBasic 0 rest)
  | '\'' :: rest => some (readLiteral rest)
  | _ => none

/-- Characters of bare keys. -/
def isBare (c : Char) : Bool := c.isAlphanum || c == '_' || c == '-'

def readKey : Reader String := fun text =>
  match text with
  | '"' :: rest => (readBasic 0 rest).map fun (key, rest) => (String.ofList key, rest)
  | '\'' :: rest => (readLiteral rest).map fun (key, rest) => (String.ofList key, rest)
  | _ =>
    match text.takeWhile isBare with
    | [] => none
    | key => some (String.ofList key, text.dropWhile isBare)

/-- Where a value or a table belongs: the tables on the way and the last key. -/
structure Path where
  parents : List String
  key : String
deriving DecidableEq, Repr

def Path.push (first : String) (path : Path) : Path := ⟨first :: path.parents, path.key⟩

/-- How many keys a path may have. -/
def pathLimit : Nat := 80

/-- At most some keys with points between them. -/
def readKeys : Nat → Reader Path
  | 0, _ => none
  | keys + 1, text => do
    let (key, rest) ← readKey text
    match skipBlanks rest with
    | '.' :: rest => do
      let (path, rest) ← readKeys keys (skipBlanks rest)
      pure (path.push key, rest)
    | rest => pure (⟨[], key⟩, rest)

def readPath : Reader Path := fun text => readKeys pathLimit (skipBlanks text)

end CatalogSearch.Toml
