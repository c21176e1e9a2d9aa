import CatalogSearch.Paging.Offsets
import CatalogSearch.Source.Status

/-!
# Tracking pages

The tracker knows the offsets that the running round was started with, those that
the next round will start with, and the ones that paging forward has replaced, so
that going back restores them exactly.

Sums and offsets are sixty-four bit words.  Sums that pass a word wrap around, except in the
checked functions below: these form the same sums in the same order and give up where one of
them passes a word.
-/

namespace CatalogSearch

/-- The key under which all local sites share an offset. -/
def localKey : String := "local"

structure PageTracker where
  current : Offsets
  next : Offsets
  /-- The replaced tables, the latest first. -/
  history : List Offsets
deriving DecidableEq, Repr

namespace PageTracker

/-- The tracker at the first page. -/
def fresh : PageTracker := ⟨.empty, .empty, []⟩

/-- The offset at which the running round reads a group. -/
def startOf (tracker : PageTracker) (key : String) : UInt64 := tracker.current.get key

/-- A round starts with the offsets staged for it. -/
def beginRound (tracker : PageTracker) : PageTracker := { tracker with current := tracker.next }

/-- The statuses of local sites. -/
def localStatuses (registry : Registry) (board : StatusBoard) : List Status :=
  board.filter fun status => registry.isLocal status.id

/-- One past all known hits of local sites. -/
def localCap (registry : Registry) (board : StatusBoard) : UInt64 :=
  StatusBoard.sumHits (localStatuses registry board) + 1

/-- The offsets after the page that a status tells of.  A group moves by what was
returned, but not past its cap: one past its hits, or its first record if they are
unknown. -/
def step (registry : Registry) (cap : UInt64) (offsets : Offsets) (status : Status) : Offsets :=
  if status.id = Source.cacheId then offsets
  else if registry.isLocal status.id then
    offsets.set localKey (min (offsets.get localKey + status.count) cap)
  else
    let cap := (status.hits.map (· + 1)).getD 1
    offsets.set status.id (min (offsets.get status.id + status.count) cap)

/-- The current offsets, with an entry for each group that is selected. -/
def baseline (tracker : PageTracker) (selected : List String) (registry : Registry) : Offsets :=
  let groups := localKey :: selected.filter registry.isFederated
  tracker.current.foldl (fun offsets entry => offsets.set entry.1 entry.2)
    (groups.foldl (fun offsets key => offsets.set key 1) .empty)

/-- The offsets of the page after the current one. -/
def following (tracker : PageTracker) (selected : List String) (registry : Registry)
    (board : StatusBoard) : Offsets :=
  board.foldl (step registry (localCap registry board)) (tracker.baseline selected registry)

/-- Stages the page after the current one. -/
def advance (tracker : PageTracker) (selected : List String) (registry : Registry)
    (board : StatusBoard) : PageTracker :=
  { tracker with
    next := tracker.following selected registry board
    history := tracker.next :: tracker.history }

/-- Stages the page before, if there is one. -/
def retreat? (tracker : PageTracker) : Option PageTracker :=
  match tracker.history with
  | [] => none
  | previous :: earlier => some { tracker with next := previous, history := earlier }

def hasPrevious (tracker : PageTracker) : Bool := !tracker.history.isEmpty

/-- Whether a group of sources has hits past what was read. -/
def hasNext (tracker : PageTracker) (registry : Registry) (board : StatusBoard) : Bool :=
  let localOnes := localStatuses registry board
  let seen := (localOnes.map Status.count).foldr (· + ·) 0
  decide (seen + tracker.current.get localKey ≤ StatusBoard.sumHits localOnes) ||
    board.any fun status =>
      registry.isFederated status.id &&
        match status.hits with
        | some hits => decide (status.count + tracker.current.get status.id ≤ hits)
        | none => false

/-- The number of pages before the staged one. -/
def pageIndex (tracker : PageTracker) : Nat := tracker.history.length

/-! ## Checked sums -/

/-- One past all known hits of local sites, unless that passes a word. -/
def localCap? (registry : Registry) (board : StatusBoard) : Option UInt64 := do
  Word.add? (← StatusBoard.sumHits? (localStatuses registry board)) 1

/-- One past the hits of a site, or its first record if they are unknown. -/
def siteCap? (status : Status) : Option UInt64 :=
  match status.hits with
  | some hits => Word.add? hits 1
  | none => some 1

/-- The offsets with that of a group moved by what was returned, but not past a cap. -/
def move? (offsets : Offsets) (key : String) (count cap : UInt64) : Option Offsets := do
  let moved ← Word.add? (offsets.get key) count
  some (offsets.set key (min moved cap))

/-- The offsets after the page that a status tells of. -/
def step? (registry : Registry) (cap : UInt64) (offsets : Offsets) (status : Status) :
    Option Offsets :=
  if status.id = Source.cacheId then some offsets
  else if registry.isLocal status.id then move? offsets localKey status.count cap
  else do move? offsets status.id status.count (← siteCap? status)

/-- The offsets of the page after the current one. -/
def following? (tracker : PageTracker) (selected : List String) (registry : Registry)
    (board : StatusBoard) : Option Offsets := do
  let cap ← localCap? registry board
  board.foldlM (step? registry cap) (tracker.baseline selected registry)

/-- Stages the page after the current one. -/
def advance? (tracker : PageTracker) (selected : List String) (registry : Registry)
    (board : StatusBoard) : Option PageTracker := do
  let next ← tracker.following? selected registry board
  some { tracker with next, history := tracker.next :: tracker.history }

/-- The statuses of federated sites. -/
def siteStatuses (registry : Registry) (board : StatusBoard) : List Status :=
  board.filter fun status => registry.isFederated status.id

/-- Whether a site has hits past what was read. -/
def siteHasNext? (tracker : PageTracker) (status : Status) : Option Bool :=
  match status.hits with
  | some hits => do
    let last ← Word.add? status.count (tracker.current.get status.id)
    some (decide (last ≤ hits))
  | none => some false

/-- Whether a group of sources has hits past what was read.  Sites are looked at only up to
the first that has. -/
def hasNext? (tracker : PageTracker) (registry : Registry) (board : StatusBoard) :
    Option Bool := do
  let localOnes := localStatuses registry board
  let seen ← Word.sum? (localOnes.map Status.count)
  let hits ← StatusBoard.sumHits? localOnes
  let last ← Word.add? seen (tracker.current.get localKey)
  if last ≤ hits then some true
  else (siteStatuses registry board).anyM tracker.siteHasNext?

theorem retreat?_advance (tracker : PageTracker) (selected : List String) (registry : Registry)
    (board : StatusBoard) : (tracker.advance selected registry board).retreat? = some tracker := rfl

theorem pageIndex_advance (tracker : PageTracker) (selected : List String) (registry : Registry)
    (board : StatusBoard) :
    (tracker.advance selected registry board).pageIndex = tracker.pageIndex + 1 := rfl

end PageTracker

end CatalogSearch
