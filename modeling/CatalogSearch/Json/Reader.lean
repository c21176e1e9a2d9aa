import CatalogSearch.Json.Basic
import CatalogSearch.Number.Scaled

/-!
# Reading structured values

A reader takes a value from the front of the text and returns what follows it.
Arrays and objects may nest only as deep as the caller allows; of several fields
with one key the last one counts; a number out of the range of doubles makes the
text unreadable.
-/

namespace CatalogSearch.Json

def isSpace (c : Char) : Bool := c == ' ' || c == '\n' || c == '\r' || c == '\t'

def skipSpace (text : List Char) : List Char := text.dropWhile isSpace

def hexValue? (c : Char) : Option Nat :=
  if c.isDigit then some (c.toNat - '0'.toNat)
  else if 'a' ≤ c && c ≤ 'f' then some (c.toNat - 'a'.toNat + 10)
  else if 'A' ≤ c && c ≤ 'F' then some (c.toNat - 'A'.toNat + 10)
  else none

/-- The number of four hexadecimal digits. -/
def hexUnit? (a b c d : Char) : Option Nat := do
  let a ← hexValue? a
  let b ← hexValue? b
  let c ← hexValue? c
  let d ← hexValue? d
  pure (((a * 16 + b) * 16 + c) * 16 + d)

/-- The character that a single letter after a backslash stands for. -/
def escapedLetter? : Char → Option Char
  | '"' => some '"'
  | '\\' => some '\\'
  | '/' => some '/'
  | 'b' => some (Char.ofNat 8)
  | 'f' => some (Char.ofNat 12)
  | 'n' => some '\n'
  | 'r' => some '\r'
  | 't' => some '\t'
  | _ => none

/-- The character of two halves of a surrogate pair. -/
def joinSurrogates (high low : Nat) : Char :=
  Char.ofNat (0x10000 + (high - 0xD800) * 0x400 + (low - 0xDC00))

def isHighSurrogate (unit : Nat) : Bool := 0xD800 ≤ unit && unit < 0xDC00

def isLowSurrogate (unit : Nat) : Bool := 0xDC00 ≤ unit && unit < 0xE000

/-- The characters up to the closing quote, and the text after it. -/
def readCharacters : List Char → Option (List Char × List Char)
  | [] => none
  | '"' :: rest => some ([], rest)
  | '\\' :: 'u' :: a :: b :: c :: d :: '\\' :: 'u' :: e :: f :: g :: h :: rest => do
    let unit ← hexUnit? a b c d
    let next ← hexUnit? e f g h
    if isHighSurrogate unit then
      if isLowSurrogate next then
        let (text, rest) ← readCharacters rest
        pure (joinSurrogates unit next :: text, rest)
      else none
    else if isLowSurrogate unit then none
    else
      let (text, rest) ← readCharacters ('\\' :: 'u' :: e :: f :: g :: h :: rest)
      pure (Char.ofNat unit :: text, rest)
  | '\\' :: 'u' :: a :: b :: c :: d :: rest => do
    let unit ← hexUnit? a b c d
    if isHighSurrogate unit || isLowSurrogate unit then none
    else
      let (text, rest) ← readCharacters rest
      pure (Char.ofNat unit :: text, rest)
  | '\\' :: letter :: rest => do
    let c ← escapedLetter? letter
    let (text, rest) ← readCharacters rest
    pure (c :: text, rest)
  | c :: rest =>
    if c.toNat < 32 || c = '\\' then none
    else do
      let (text, rest) ← readCharacters rest
      pure (c :: text, rest)

/-- The digits of a whole part: zero alone, or digits that start with another. -/
def readWhole? (text : List Char) : Option (List Char × List Char) :=
  match text.takeWhile Char.isDigit, text.dropWhile Char.isDigit with
  | [], _ => none
  | ['0'], rest => some (['0'], rest)
  | '0' :: _, _ => none
  | digits, rest => some (digits, rest)

/-- The digits after the point, if there is one. -/
def readPlaces? : List Char → Option (Option (List Char) × List Char)
  | '.' :: rest =>
    match rest.takeWhile Char.isDigit with
    | [] => none
    | digits => some (some digits, rest.dropWhile Char.isDigit)
  | rest => some (none, rest)

/-- The exponent, if there is one. -/
def readPower? : List Char → Option (Option Int × List Char)
  | mark :: rest =>
    if mark != 'e' && mark != 'E' then some (none, mark :: rest)
    else
      let (negative, rest) := match rest with
        | '-' :: rest => (true, rest)
        | '+' :: rest => (false, rest)
        | rest => (false, rest)
      match rest.takeWhile Char.isDigit with
      | [] => none
      | digits =>
        let value : Int := Decimal.ofDigits digits
        some (some (if negative then -value else value), rest.dropWhile Char.isDigit)
  | [] => some (none, [])

/-- The number that a numeral stands for.  Digits of the whole part that do not
fit into sixty-four bits count as zeros, and digits of the places as absent. -/
def numberOf? (negative : Bool) (whole : List Char) (places : Option (List Char))
    (power : Option Int) : Option Number :=
  let (significand, taken) := readDigits 0 whole
  let skipped := whole.length - taken
  match places, power with
  | none, none =>
    if skipped = 0 && !negative then some (.integer significand)
    else if skipped = 0 && 0 < significand && significand ≤ 1 <<< 63 then
      some (.integer (-(significand : Int)))
    else (Double.ofScaled? negative significand skipped).map .real
  | _, _ =>
    let (significand, taken) := readDigits significand (places.getD [])
    let exponent : Int := skipped - taken + power.getD 0
    (Double.ofScaled? negative significand exponent).map .real

def readNumber? (text : List Char) : Option (Number × List Char) := do
  let (negative, text) := match text with
    | '-' :: rest => (true, rest)
    | rest => (false, rest)
  let (whole, text) ← readWhole? text
  let (places, text) ← readPlaces? text
  let (power, text) ← readPower? text
  let value ← numberOf? negative whole places power
  pure (value, text)

/-- A fixed word at the front of the text. -/
def readWord? (word : List Char) (value : Json) (text : List Char) :
    Option (Json × List Char) :=
  if word.isPrefixOf text then some (value, text.drop word.length) else none

abbrev Reader (α : Type) := List Char → Option (α × List Char)

/-- Items with commas between them, up to the closing mark, after the first.
The number of steps is bounded by the length of the text. -/
def readMore {α : Type} (close : Char) (item : Reader α) : Nat → Reader (List α)
  | 0, _ => none
  | steps + 1, text =>
    match skipSpace text with
    | c :: rest =>
      if c = close then some ([], rest)
      else if c = ',' then do
        let (first, rest) ← item rest
        let (more, rest) ← readMore close item steps rest
        pure (first :: more, rest)
      else none
    | [] => none

/-- All items up to the closing mark. -/
def readSequence {α : Type} (close : Char) (item : Reader α) : Reader (List α) := fun text =>
  match skipSpace text with
  | c :: rest =>
    if c = close then some ([], rest)
    else do
      let (first, rest) ← item (c :: rest)
      let (more, rest) ← readMore close item (rest.length + 1) rest
      pure (first :: more, rest)
  | [] => none

/-- A key, a colon and a value. -/
def readEntry (value : Reader Json) : Reader (String × Json) := fun text =>
  match skipSpace text with
  | '"' :: rest => do
    let (key, rest) ← readCharacters rest
    match skipSpace rest with
    | ':' :: rest =>
      let (value, rest) ← value rest
      pure ((String.ofList key, value), rest)
    | _ => none
  | _ => none

/-- A value in which arrays and objects nest at most `levels` deep. -/
def readValue (levels : Nat) : Reader Json := fun text =>
  match skipSpace text with
  | [] => none
  | '"' :: rest => (readCharacters rest).map fun (text, rest) => (string (String.ofList text), rest)
  | '[' :: rest =>
    match levels with
    | 0 => none
    | levels + 1 => (readSequence ']' (readValue levels) rest).map fun (items, rest) =>
      (array items, rest)
  | '{' :: rest =>
    match levels with
    | 0 => none
    | levels + 1 => (readSequence '}' (readEntry (readValue levels)) rest).map fun (fields, rest) =>
      (ofFields fields, rest)
  | 'n' :: rest => readWord? ['u', 'l', 'l'] null rest
  | 't' :: rest => readWord? ['r', 'u', 'e'] (bool true) rest
  | 'f' :: rest => readWord? ['a', 'l', 's', 'e'] (bool false) rest
  | c :: rest => (readNumber? (c :: rest)).map fun (value, rest) => (number value, rest)

/-- The value that a text holds, and nothing else but white space. -/
def read? (levels : Nat) (text : String) : Option Json := do
  let (value, rest) ← readValue levels text.toList
  if (skipSpace rest).isEmpty then some value else none

end CatalogSearch.Json
