import CatalogSearch.Number.Decimal

/-!
# Arguments of the command line

Options are given by long names, some by a letter as well; a value follows its
option or is attached to it.  A value that follows is looked at when the next
option begins or the arguments end, so that an unknown argument is noticed before
a bad value in front of it.
-/

namespace CatalogSearch.CommandLine

structure Arguments where
  config : String
  cql : Option String
  federation : Option String
  sources : List String
  pages : UInt32
  tieredIds : List String
  deleted : Bool
  historic : Bool
deriving DecidableEq, Repr

inductive ArgumentFault
  | displayHelp
  | displayVersion
  | invalidValue
  | valueValidation
  | unknownArgument
  | tooManyValues
  | argumentConflict
  | missingRequiredArgument
deriving DecidableEq, Repr

def ArgumentFault.name : ArgumentFault → String
  | displayHelp => "DisplayHelp"
  | displayVersion => "DisplayVersion"
  | invalidValue => "InvalidValue"
  | valueValidation => "ValueValidation"
  | unknownArgument => "UnknownArgument"
  | tooManyValues => "TooManyValues"
  | argumentConflict => "ArgumentConflict"
  | missingRequiredArgument => "MissingRequiredArgument"

inductive Switch
  | config
  | cql
  | federation
  | source
  | pages
  | tieredId
  | deleted
  | historic
  | help
  | version
deriving DecidableEq, Repr

namespace Switch

def ofName? : String → Option Switch
  | "config" => some config
  | "cql" => some cql
  | "federation" => some federation
  | "source" => some source
  | "pages" => some pages
  | "tiered-id" => some tieredId
  | "deleted" => some deleted
  | "historic" => some historic
  | "help" => some help
  | "version" => some version
  | _ => none

def ofLetter? : Char → Option Switch
  | 'c' => some config
  | 'h' => some help
  | 'V' => some version
  | _ => none

/-- Whether the option stands alone, without a value. -/
def isFlag : Switch → Bool
  | deleted | historic | help | version => true
  | _ => false

end Switch

/-- What was given so far. -/
structure Draft where
  config : Option String
  cql : Option String
  federation : Option String
  sources : List String
  pages : Option UInt32
  tieredIds : List String
  deleted : Bool
  historic : Bool
deriving DecidableEq, Repr

namespace Draft

def empty : Draft := ⟨none, none, none, [], none, [], false, false⟩

/-- Whether an option that may be given only once was given. -/
def has (draft : Draft) : Switch → Bool
  | .config => draft.config.isSome
  | .cql => draft.cql.isSome
  | .federation => draft.federation.isSome
  | .pages => draft.pages.isSome
  | .deleted => draft.deleted
  | .historic => draft.historic
  | _ => false

end Draft

/-- The number of a text, which has an optional sign and fits into thirty-two
bits. -/
def pageCount? (text : String) : Option UInt32 :=
  let (negative, digits) := Decimal.splitSign text.toList
  let value := Decimal.ofDigits digits
  if digits.isEmpty || !digits.all Char.isDigit then none
  else if negative && value != 0 then none
  else if value < UInt32.size then some (UInt32.ofNat value)
  else none

/-- Takes the value of an option into the draft. -/
def store (draft : Draft) (switch : Switch) (value : String) : Except ArgumentFault Draft :=
  match switch with
  | .config =>
    if value.isEmpty then .error .invalidValue else .ok { draft with config := some value }
  | .cql => .ok { draft with cql := some value }
  | .federation => .ok { draft with federation := some value }
  | .source => .ok { draft with sources := draft.sources ++ [value] }
  | .tieredId => .ok { draft with tieredIds := draft.tieredIds ++ [value] }
  | .pages =>
    match pageCount? value with
    | some pages => .ok { draft with pages := some pages }
    | none => .error .valueValidation
  | _ => .error .tooManyValues

/-- Takes an option with its value into the draft. -/
def takeOption (draft : Draft) (switch : Switch) (value : Option String) :
    Except ArgumentFault Draft :=
  match value with
  | none => .error .invalidValue
  | some value => if draft.has switch then .error .argumentConflict else store draft switch value

/-- Takes a flag into the draft. -/
def takeFlag (draft : Draft) (switch : Switch) : Except ArgumentFault Draft :=
  if draft.has switch then .error .argumentConflict
  else
    match switch with
    | .deleted => .ok { draft with deleted := true }
    | .historic => .ok { draft with historic := true }
    | .help => .error .displayHelp
    | .version => .error .displayVersion
    | _ => .error .invalidValue

/-- The draft, and an option that is still to be taken with its value, if it has
come. -/
structure Progress where
  draft : Draft
  pending : Option (Switch × Option String)
deriving DecidableEq, Repr

/-- Takes the option that is still to be taken. -/
def Progress.resolve (progress : Progress) : Except ArgumentFault Draft :=
  match progress.pending with
  | none => .ok progress.draft
  | some (switch, value) => takeOption progress.draft switch value

/-- Begins an option, with the value attached to it, if any. -/
def Progress.begin (progress : Progress) (switch : Switch) (attached : Option String) :
    Except ArgumentFault Progress := do
  let draft ← progress.resolve
  match attached with
  | none => .ok ⟨draft, some (switch, none)⟩
  | some value => do
    let draft ← takeOption draft switch (some value)
    .ok ⟨draft, none⟩

def Progress.flag (progress : Progress) (switch : Switch) : Except ArgumentFault Progress := do
  let draft ← progress.resolve
  let draft ← takeFlag draft switch
  .ok ⟨draft, none⟩

/-- An argument with a long name, and what stands behind its equals sign. -/
def takeLong (progress : Progress) (name : List Char) : Except ArgumentFault Progress :=
  let word := String.ofList (name.takeWhile (· != '='))
  let attached := match name.dropWhile (· != '=') with
    | [] => none
    | _ :: value => some (String.ofList value)
  match Switch.ofName? word with
  | none => .error .unknownArgument
  | some switch =>
    if switch.isFlag then
      if attached.isSome then .error .tooManyValues else progress.flag switch
    else progress.begin switch attached

/-- Letters, of which one that needs a value takes all that follow. -/
def takeLetters (progress : Progress) : List Char → Except ArgumentFault Progress
  | [] => .ok progress
  | letter :: rest =>
    match Switch.ofLetter? letter with
    | none => .error .unknownArgument
    | some switch =>
      if switch.isFlag then do
        let progress ← progress.flag switch
        takeLetters progress rest
      else
        match rest with
        | [] => progress.begin switch none
        | '=' :: value => progress.begin switch (some (String.ofList value))
        | value => progress.begin switch (some (String.ofList value))

/-- An argument that is no option: the value of the one before it. -/
def takePlain (progress : Progress) (text : String) : Except ArgumentFault Progress :=
  match progress.pending with
  | some (switch, none) => .ok { progress with pending := some (switch, some text) }
  | _ => .error .unknownArgument

/-- Takes arguments one by one.  Behind two dashes nothing may follow. -/
def takeAll (progress : Progress) : List String → Except ArgumentFault Progress
  | [] => .ok progress
  | argument :: rest =>
    match argument.toList with
    | ['-', '-'] => if rest.isEmpty then .ok progress else .error .unknownArgument
    | '-' :: '-' :: name => do
      let progress ← takeLong progress name
      takeAll progress rest
    | '-' :: letter :: letters => do
      let progress ← takeLetters progress (letter :: letters)
      takeAll progress rest
    | _ => do
      let progress ← takePlain progress argument
      takeAll progress rest

/-- The arguments of a draft that is complete. -/
def Draft.finish (draft : Draft) : Except ArgumentFault Arguments :=
  if draft.deleted && draft.historic then .error .argumentConflict
  else
    match draft.config with
    | none => .error .missingRequiredArgument
    | some config =>
      .ok
        { config
          cql := draft.cql
          federation := draft.federation
          sources := draft.sources
          pages := draft.pages.getD 1
          tieredIds := draft.tieredIds
          deleted := draft.deleted
          historic := draft.historic }

/-- The meaning of the arguments behind the program's name. -/
def Arguments.read (arguments : List String) : Except ArgumentFault Arguments := do
  let progress ← takeAll ⟨.empty, none⟩ arguments
  let draft ← progress.resolve
  draft.finish

end CatalogSearch.CommandLine
