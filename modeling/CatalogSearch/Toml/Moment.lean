import CatalogSearch.Toml.Strings
import CatalogSearch.Number.Decimal

/-!
# Dates and times

A moment is a date, a time of day, or both with perhaps an offset from universal
time.  Dates exist in the calendar and times on the clock, which may show one second
past the fifty-ninth.  A moment may be written in several ways, of which
`Moment.write` is the usual one.
-/

namespace CatalogSearch.Toml

/-- The number of exactly some digits at the front of a text. -/
def takeNumber? (count : Nat) : Reader Nat := fun text =>
  let digits := text.take count
  if digits.length = count && digits.all Char.isDigit then
    some (Decimal.ofDigits digits, text.drop count)
  else none

/-- The number of exactly two digits, which must lie below a limit. -/
def takeBelow? (limit : Nat) : Reader (Fin limit) := fun text => do
  let (value, rest) ← takeNumber? 2 text
  if h : value < limit then some (⟨value, h⟩, rest) else none

/-- A number in decimal digits, with zeros in front up to a count of digits. -/
def padded (count value : Nat) : List Char :=
  let digits := Nat.toDigits 10 value
  List.replicate (count - digits.length) '0' ++ digits

def isLeapYear (year : Nat) : Bool :=
  (year % 4 == 0 && year % 100 != 0) || year % 400 == 0

def daysIn (year month : Nat) : Nat :=
  if month = 2 then if isLeapYear year then 29 else 28
  else if month = 4 || month = 6 || month = 9 || month = 11 then 30
  else 31

/-- Whether the calendar has a day, where years have four digits. -/
def isDay (year month day : Nat) : Bool :=
  year < 10000 && 1 ≤ month && month ≤ 12 && 1 ≤ day && day ≤ daysIn year month

structure Date where
  year : Nat
  month : Nat
  day : Nat
  exists_day : isDay year month day
deriving DecidableEq, Repr

namespace Date

def read : Reader Date := fun text => do
  let (year, rest) ← takeNumber? 4 text
  let rest ← expect '-' rest
  let (month, rest) ← takeNumber? 2 rest
  let rest ← expect '-' rest
  let (day, rest) ← takeNumber? 2 rest
  if h : isDay year month day then some (⟨year, month, day, h⟩, rest) else none

def write (date : Date) : List Char :=
  padded 4 date.year ++ '-' :: padded 2 date.month ++ '-' :: padded 2 date.day

end Date

/-- A second of a minute.  Its fraction, if it has one, is kept in nanoseconds. -/
structure Second where
  whole : Fin 61
  nanoseconds : Option (Fin 1000000000)
deriving DecidableEq, Repr

namespace Second

/-- The fraction of the digits behind a point, of which nine count. -/
def ofPlaces (places : List Char) : Fin 1000000000 :=
  Fin.ofNat _ (Decimal.ofDigits ((places ++ List.replicate 9 '0').take 9))

/-- The digits of a fraction without zeros at their end, but at least one. -/
def places (nanoseconds : Fin 1000000000) : List Char :=
  match ((padded 9 nanoseconds.val).reverse.dropWhile (· == '0')).reverse with
  | [] => ['0']
  | places => places

def read : Reader Second := fun text => do
  let (whole, rest) ← takeBelow? 61 text
  match rest with
  | '.' :: rest =>
    match rest.takeWhile Char.isDigit with
    | [] => none
    | places => pure (⟨whole, some (ofPlaces places)⟩, rest.dropWhile Char.isDigit)
  | rest => pure (⟨whole, none⟩, rest)

def write (second : Second) : List Char :=
  padded 2 second.whole.val ++
    match second.nanoseconds with
    | none => []
    | some nanoseconds => '.' :: places nanoseconds

end Second

/-- A time of day, in which seconds may be missing. -/
structure TimeOfDay where
  hour : Fin 24
  minute : Fin 60
  second : Option Second
deriving DecidableEq, Repr

namespace TimeOfDay

def read : Reader TimeOfDay := fun text => do
  let (hour, rest) ← takeBelow? 24 text
  let rest ← expect ':' rest
  let (minute, rest) ← takeBelow? 60 rest
  match rest with
  | ':' :: rest => do
    let (second, rest) ← Second.read rest
    pure (⟨hour, minute, some second⟩, rest)
  | rest => pure (⟨hour, minute, none⟩, rest)

def write (time : TimeOfDay) : List Char :=
  padded 2 time.hour.val ++ ':' :: padded 2 time.minute.val ++
    match time.second with
    | none => []
    | some second => ':' :: second.write

end TimeOfDay

/-- Where a time counts from. -/
inductive Offset
  | universal
  /-- Ahead of universal time, by less than a day. -/
  | ahead (minutes : Int)
deriving DecidableEq, Repr

namespace Offset

def read : Reader Offset
  | [] => none
  | c :: rest =>
    if c = 'Z' || c = 'z' then some (.universal, rest)
    else if c = '+' || c = '-' then do
      let (hours, rest) ← takeBelow? 24 rest
      let rest ← expect ':' rest
      let (minutes, rest) ← takeBelow? 60 rest
      let minutes : Int := 60 * hours.val + minutes.val
      pure (.ahead (if c = '-' then -minutes else minutes), rest)
    else none

def write : Offset → List Char
  | universal => ['Z']
  | ahead minutes =>
    (if minutes < 0 then '-' else '+') ::
      padded 2 (minutes.natAbs / 60) ++ ':' :: padded 2 (minutes.natAbs % 60)

end Offset

inductive Moment
  | date (day : Date)
  | time (clock : TimeOfDay)
  | dateTime (day : Date) (clock : TimeOfDay) (offset : Option Offset)
deriving DecidableEq, Repr

namespace Moment

/-- The moment that the whole of a text names.  A date and a time have one mark
between them, and only both together have an offset. -/
def ofText? (text : List Char) : Option Moment :=
  match Date.read text with
  | some (day, []) => some (.date day)
  | some (day, mark :: rest) =>
    if mark = 'T' || mark = 't' || mark = ' ' then
      match TimeOfDay.read rest with
      | some (clock, []) => some (.dateTime day clock none)
      | some (clock, rest) =>
        match Offset.read rest with
        | some (offset, []) => some (.dateTime day clock (some offset))
        | _ => none
      | none => none
    else none
  | none =>
    match TimeOfDay.read text with
    | some (clock, []) => some (.time clock)
    | _ => none

def write : Moment → List Char
  | date day => day.write
  | time clock => clock.write
  | dateTime day clock offset =>
    day.write ++ 'T' :: clock.write ++
      match offset with
      | none => []
      | some offset => offset.write

end Moment

end CatalogSearch.Toml
