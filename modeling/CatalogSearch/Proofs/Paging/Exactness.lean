import CatalogSearch.Proofs.Paging.Groups
import Mathlib.Algebra.Order.BigOperators.Group.List
import Mathlib.Data.List.Induction

/-!
# Paging in numbers

What paging computes with words of sixty-four bits, computed with numbers: where each group
reads on, whether there is a next page, and how many hits there are.  The words are right as
long as no sum that is formed on the way passes them.
-/

namespace CatalogSearch

namespace StatusBoard

/-- The statuses of all sources but the cache. -/
def real (board : StatusBoard) : List Status :=
  board.filter fun status => status.id != Source.cacheId

theorem knownHits_le_of_sublist {statuses others : List Status} (h : statuses.Sublist others) :
    knownHits statuses ≤ knownHits others :=
  (h.map _).sum_le_sum fun _ _ => Nat.zero_le _

theorem returned_le_of_sublist {statuses others : List Status} (h : statuses.Sublist others) :
    returned statuses ≤ returned others :=
  (h.map _).sum_le_sum fun _ _ => Nat.zero_le _

theorem returned_append (statuses others : List Status) :
    returned (statuses ++ others) = returned statuses + returned others := by
  rw [returned, List.map_append, List.sum_append]
  rfl

theorem returned_cons (status : Status) (statuses : List Status) :
    returned (status :: statuses) = status.count.toNat + returned statuses := by
  rw [returned, List.map_cons, List.sum_cons]
  rfl

theorem knownHits_singleton (status : Status) :
    knownHits [status] = (status.hits.getD 0).toNat := Nat.add_zero _

theorem returned_singleton (status : Status) : returned [status] = status.count.toNat :=
  Nat.add_zero _

theorem sharing_sublist (registry : Registry) (key : String) (board : StatusBoard) :
    (board.sharing registry key).Sublist board.real :=
  List.monotone_filter_right board fun _ h => (Bool.and_eq_true_iff.1 h).1

theorem localStatuses_sublist (registry : Registry) (board : StatusBoard) :
    (PageTracker.localStatuses registry board).Sublist board.real :=
  List.monotone_filter_right board fun _ h => (Bool.and_eq_true_iff.1 h).1

theorem site_sublist {registry : Registry} {board : StatusBoard} {status : Status}
    (hstatus : status ∈ board) (h : registry.isFederated status.id = true) :
    [status].Sublist board.real :=
  List.singleton_sublist.2
    (List.mem_filter.2 ⟨hstatus, bne_iff_ne.2 (Registry.ne_cacheId_of_isFederated h)⟩)

end StatusBoard

open StatusBoard

namespace PageTracker

variable {tracker : PageTracker} {registry : Registry} {board : StatusBoard} {key : String}

/-- One past the hits of the sources that a status is read together with. -/
def exactCap (registry : Registry) (board : StatusBoard) (status : Status) : Nat :=
  if registry.isLocal status.id then knownHits (localStatuses registry board) + 1
  else (status.hits.getD 0).toNat + 1

/-- Where a group reads on that started somewhere, after some of its statuses. -/
def exactOffset (registry : Registry) (board : StatusBoard) (start : Nat)
    (statuses : List Status) : Nat :=
  statuses.foldl
    (fun offset status => min (offset + status.count.toNat) (exactCap registry board status)) start

theorem one_le_exactCap (registry : Registry) (board : StatusBoard) (status : Status) :
    1 ≤ exactCap registry board status := by
  rw [exactCap]
  split <;> exact Nat.le_add_left 1 _

theorem exactOffset_append (registry : Registry) (board : StatusBoard) (start : Nat)
    (before : List Status) (status : Status) :
    exactOffset registry board start (before ++ [status]) =
      min (exactOffset registry board start before + status.count.toNat)
        (exactCap registry board status) :=
  List.foldl_append

theorem one_le_exactOffset (registry : Registry) (board : StatusBoard) {start : Nat}
    (h : 1 ≤ start) (statuses : List Status) :
    1 ≤ exactOffset registry board start statuses :=
  List.foldlRecOn (motive := (1 ≤ ·)) statuses _ h fun _ hoffset status _ =>
    Nat.le_min.2 ⟨Nat.le_add_right_of_le hoffset, one_le_exactCap registry board status⟩

theorem exactOffset_le {start bound : Nat} {statuses : List Status} (h : start ≤ bound)
    (hcap : ∀ status ∈ statuses, exactCap registry board status ≤ bound) :
    exactOffset registry board start statuses ≤ bound :=
  List.foldlRecOn (motive := (· ≤ bound)) statuses _ h fun _ _ status hstatus =>
    (Nat.min_le_right _ _).trans (hcap status hstatus)

theorem exactOffset_le_add (registry : Registry) (board : StatusBoard) (start : Nat)
    (statuses : List Status) :
    exactOffset registry board start statuses ≤ start + returned statuses := by
  induction statuses using List.reverseRecOn with
  | nil => exact Nat.le_add_right start _
  | append_singleton before status ih =>
    rw [exactOffset_append, returned_append, returned_singleton]
    omega

/-! ### From words to numbers -/

theorem toNat_capOf {status : Status}
    (hlocalHits : knownHits (localStatuses registry board) + 1 < 2 ^ 64)
    (hsiteHits : registry.isFederated status.id = true → (status.hits.getD 0).toNat + 1 < 2 ^ 64)
    (hcache : status.id ≠ Source.cacheId) :
    (capOf registry (localCap registry board) status).toNat = exactCap registry board status := by
  rw [exactCap]
  cases hlocal : registry.isLocal status.id with
  | true => rw [capOf, if_pos hlocal, if_pos rfl, toNat_localCap hlocalHits]
  | false =>
    have hfederated := Registry.isFederated_of_not_isLocal hcache hlocal
    rw [if_neg Bool.false_ne_true]
    exact toNat_capOf_of_site hlocal (hsiteHits hfederated)

theorem toNat_onward {status : Status} {offset : UInt64}
    (hcap : (capOf registry (localCap registry board) status).toNat =
      exactCap registry board status)
    (hpos : 1 ≤ offset.toNat) (hsum : offset.toNat + status.count.toNat < 2 ^ 64) :
    (onward registry (localCap registry board) offset status).toNat =
      min (offset.toNat + status.count.toNat) (exactCap registry board status) := by
  rw [onward, UInt64.toNat_max, UInt64.toNat_min, UInt64.toNat_add, Nat.mod_eq_of_lt hsum, hcap]
  exact Nat.max_eq_left
    (Nat.le_min.2 ⟨Nat.le_add_right_of_le hpos, one_le_exactCap registry board status⟩)

/-- A group reads on where it should, if neither a cap nor a sum on the way passes a word. -/
theorem toNat_get_following_of_moves (hsorted : tracker.current.Sorted)
    (hpos : 1 ≤ (tracker.startOf key).toNat)
    (hlocalHits : knownHits (localStatuses registry board) + 1 < 2 ^ 64)
    (hsiteHits : ∀ status ∈ board, registry.isFederated status.id = true →
      (status.hits.getD 0).toNat + 1 < 2 ^ 64)
    (hmoves : ∀ before status after, board.sharing registry key = before ++ status :: after →
      exactOffset registry board (tracker.startOf key).toNat before + status.count.toNat < 2 ^ 64)
    (selected : List String) :
    ((tracker.following selected registry board).get key).toNat =
      exactOffset registry board (tracker.startOf key).toNat (board.sharing registry key) := by
  -- the offset is right after each of the statuses that move it
  have hbefore (before : List Status) (hfront : before <+: board.sharing registry key) :
      (before.foldl (onward registry (localCap registry board))
        (max (tracker.startOf key) 1)).toNat =
          exactOffset registry board (tracker.startOf key).toNat before := by
    induction before using List.reverseRecOn with
    | nil =>
      rw [List.foldl_nil, UInt64.toNat_max]
      exact Nat.max_eq_left hpos
    | append_singleton before status ih =>
      obtain ⟨after, hsharing⟩ := hfront
      rw [List.append_assoc, List.singleton_append] at hsharing
      have hoffset := ih ⟨status :: after, hsharing⟩
      have hstatus : status ∈ board.sharing registry key := by
        rw [← hsharing]
        exact List.mem_append_right _ List.mem_cons_self
      obtain ⟨hmem, hcache, -⟩ := mem_sharing.1 hstatus
      have hcap := toNat_capOf hlocalHits (hsiteHits status hmem) hcache
      have hsum := hmoves before status after hsharing.symm
      have hone := one_le_exactOffset registry board hpos before
      rw [← hoffset] at hsum hone
      rw [List.foldl_append, List.foldl_cons, List.foldl_nil, toNat_onward hcap hone hsum,
        exactOffset_append, hoffset]
  rw [get_following_eq_foldl hsorted]
  exact hbefore _ List.prefix_rfl

/-- Whether local sites have hits past what was read. -/
def LocalNext (tracker : PageTracker) (registry : Registry) (board : StatusBoard) : Prop :=
  returned (localStatuses registry board) + (tracker.startOf localKey).toNat ≤
    knownHits (localStatuses registry board)

/-- Whether a site has hits past what was read. -/
def SiteNext (tracker : PageTracker) (status : Status) : Prop :=
  status.count.toNat + (tracker.startOf status.id).toNat ≤ (status.hits.getD 0).toNat

/-- Whether local sites or a federated one have hits past what was read. -/
def ExactNext (tracker : PageTracker) (registry : Registry) (board : StatusBoard) : Prop :=
  tracker.LocalNext registry board ∨
    ∃ status ∈ board, registry.isFederated status.id = true ∧ tracker.SiteNext status

end PageTracker

end CatalogSearch
