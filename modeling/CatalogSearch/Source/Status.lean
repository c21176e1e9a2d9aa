import CatalogSearch.Answer
import CatalogSearch.Number.Word
import CatalogSearch.Source.Registry

/-!
# The status board

The board shows how far each source has come in the current round.  A source is
pending until it is reported on, until its request is completed without a report,
or until it fails.
-/

namespace CatalogSearch

structure Status where
  id : String
  pending : Bool
  /-- Absent until the source has answered. -/
  successful : Option Bool
  hits : Option UInt64
  count : UInt64
  elapsed : Option UInt64
  warnings : List String
deriving DecidableEq, Repr

/-- The status of a source that has been asked. -/
def Status.asked (id : String) : Status := ⟨id, true, none, none, 0, none, []⟩

def Status.toJson (status : Status) : Json :=
  let word (value : Option UInt64) : Json :=
    match value with
    | none => .null
    | some value => .ofNat value.toNat
  .ofFields
    [("id", .string status.id), ("pending", .bool status.pending),
      ("successful", match status.successful with
        | none => .null
        | some value => .bool value),
      ("hits", word status.hits), ("count", .ofNat status.count.toNat),
      ("elapsed", word status.elapsed), ("warnings", .strings status.warnings)]

abbrev StatusBoard := List Status

namespace StatusBoard

/-- The board of a new round.  Seeded statuses stay unless their source is asked
again. -/
def start (ids : List String) (seeds : List Status) : StatusBoard :=
  seeds.filter (fun status => !ids.contains status.id) ++ ids.map Status.asked

def find? (board : StatusBoard) (id : String) : Option Status := Roster.find? Status.id id board

/-- The status of a source, asked if it is not on the board. -/
def status (board : StatusBoard) (id : String) : Status := (board.find? id).getD (.asked id)

/-- The board with the status of a source changed. -/
def update (board : StatusBoard) (id : String) (change : Status → Status) : StatusBoard :=
  Roster.enter Status.id id (.asked id) change board

/-- The status after a report.  Hits that are not reported stay as they were, and
a report that does not tell of failure tells of success. -/
def reported (report : Answer.Report) (status : Status) : Status :=
  { status with
    pending := false
    successful := some (report.successful.getD true)
    hits := report.hits.orElse fun _ => status.hits
    count := report.count.getD 0
    elapsed := report.elapsed
    warnings := report.warnings }

def report (board : StatusBoard) (report : Answer.Report) : StatusBoard :=
  board.update report.id (reported report)

/-- The status of a source whose request was answered. -/
def completed (status : Status) : Status :=
  if status.pending then { status with pending := false, successful := some true } else status

def failed (status : Status) : Status :=
  { status with pending := false, successful := some false, count := 0 }

/-- A board after some changes, and the statuses that they led to, in order. -/
abbrev Changed := StatusBoard × List Status

/-- The board after all of some reports. -/
def reportAll (board : StatusBoard) : List Answer.Report → Changed
  | [] => (board, [])
  | report :: reports =>
    let next := board.report report
    let (last, changed) := reportAll next reports
    (last, next.status report.id :: changed)

/-- The board after the request for some sources was answered.  Sources that are
no longer pending are left as they are. -/
def complete (board : StatusBoard) : List String → Changed
  | [] => (board, [])
  | id :: ids =>
    let next := board.update id completed
    let (last, changed) := complete next ids
    (last, if (board.status id).pending then next.status id :: changed else changed)

/-- The board after the request for some sources failed. -/
def fail (board : StatusBoard) : List String → Changed
  | [] => (board, [])
  | id :: ids =>
    let next := board.update id failed
    let (last, changed) := fail next ids
    (last, next.status id :: changed)

/-- The board on which nothing is waited for any more. -/
def finish (board : StatusBoard) : StatusBoard :=
  board.map fun status => { status with pending := false }

def isPending (board : StatusBoard) : Bool := board.any Status.pending

/-- The sum of the known hits, as a sixty-four bit word. -/
def sumHits (statuses : List Status) : UInt64 := (statuses.filterMap Status.hits).foldr (· + ·) 0

/-- The hits of all sources but the cache, which mirrors the others. -/
def totalHits (board : StatusBoard) : UInt64 :=
  sumHits (board.filter fun status => status.id != Source.cacheId)

/-- The sum of the known hits, unless it passes a word. -/
def sumHits? (statuses : List Status) : Option UInt64 :=
  Word.sum? (statuses.filterMap Status.hits)

/-- The hits of all sources but the cache, unless their sum passes a word. -/
def totalHits? (board : StatusBoard) : Option UInt64 :=
  sumHits? (board.filter fun status => status.id != Source.cacheId)

end StatusBoard

end CatalogSearch
