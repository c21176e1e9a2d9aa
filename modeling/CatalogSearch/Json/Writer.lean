import CatalogSearch.Json.Basic
import CatalogSearch.Number.Notation

/-!
# Writing structured values

A value is written without white space, or over several lines, its fields in the
order of their table.  Each function puts its text in front of the text that
follows it.
-/

namespace CatalogSearch.Json

/-- The characters that stand for a character inside quotes.  Quotes,
backslashes and control characters are escaped; all else stands for itself. -/
def escaped (c : Char) : List Char :=
  if c = '"' then ['\\', '"']
  else if c = '\\' then ['\\', '\\']
  else if c.toNat = 8 then ['\\', 'b']
  else if c.toNat = 9 then ['\\', 't']
  else if c.toNat = 10 then ['\\', 'n']
  else if c.toNat = 12 then ['\\', 'f']
  else if c.toNat = 13 then ['\\', 'r']
  else if c.toNat < 32 then
    ['\\', 'u', '0', '0', Nat.digitChar (c.toNat / 16), Nat.digitChar (c.toNat % 16)]
  else [c]

def writeEscaped (text rest : List Char) : List Char :=
  match text with
  | [] => rest
  | c :: text => escaped c ++ writeEscaped text rest

def writeString (value : String) (rest : List Char) : List Char :=
  '"' :: writeEscaped value.toList ('"' :: rest)

def Number.text : Number → List Char
  | integer value => (if value < 0 then ['-'] else []) ++ Nat.toDigits 10 value.natAbs
  | real value => value.marked

mutual

def write : Json → List Char → List Char
  | null, rest => 'n' :: 'u' :: 'l' :: 'l' :: rest
  | bool true, rest => 't' :: 'r' :: 'u' :: 'e' :: rest
  | bool false, rest => 'f' :: 'a' :: 'l' :: 's' :: 'e' :: rest
  | number value, rest => value.text ++ rest
  | string value, rest => writeString value rest
  | array items, rest => '[' :: writeItems true items (']' :: rest)
  | object fields, rest => '{' :: writeFields true fields ('}' :: rest)

/-- Items with commas between them; the first one has none before it. -/
def writeItems : Bool → List Json → List Char → List Char
  | _, [], rest => rest
  | true, item :: items, rest => write item (writeItems false items rest)
  | false, item :: items, rest => ',' :: write item (writeItems false items rest)

def writeFields : Bool → List (String × Json) → List Char → List Char
  | _, [], rest => rest
  | true, (key, value) :: fields, rest =>
    writeString key (':' :: write value (writeFields false fields rest))
  | false, (key, value) :: fields, rest =>
    ',' :: writeString key (':' :: write value (writeFields false fields rest))

end

/-- A new line, indented by two spaces for each level. -/
def lineBreak (level : Nat) (rest : List Char) : List Char :=
  '\n' :: (List.replicate (2 * level) ' ' ++ rest)

mutual

/-- The value over several lines: each item and field stands on its own. -/
def writeIndented (level : Nat) : Json → List Char → List Char
  | array (item :: items), rest =>
    '[' :: writeIndentedItems (level + 1) true (item :: items) (lineBreak level (']' :: rest))
  | object (field :: fields), rest =>
    '{' :: writeIndentedFields (level + 1) true (field :: fields) (lineBreak level ('}' :: rest))
  | value, rest => write value rest

def writeIndentedItems (level : Nat) : Bool → List Json → List Char → List Char
  | _, [], rest => rest
  | true, item :: items, rest =>
    lineBreak level (writeIndented level item (writeIndentedItems level false items rest))
  | false, item :: items, rest =>
    ',' :: lineBreak level (writeIndented level item (writeIndentedItems level false items rest))

def writeIndentedFields (level : Nat) : Bool → List (String × Json) → List Char → List Char
  | _, [], rest => rest
  | true, (key, value) :: fields, rest =>
    lineBreak level (writeString key (':' :: ' ' ::
      writeIndented level value (writeIndentedFields level false fields rest)))
  | false, (key, value) :: fields, rest =>
    ',' :: lineBreak level (writeString key (':' :: ' ' ::
      writeIndented level value (writeIndentedFields level false fields rest)))

end

/-- The text of a value over several lines. -/
def pretty (value : Json) : String := String.ofList (writeIndented 0 value [])

/-- The text of a value. -/
def compress (value : Json) : String := String.ofList (write value [])

end CatalogSearch.Json
