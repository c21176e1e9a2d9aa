import CatalogSearch.Proofs.Paging.Exactness
import CatalogSearch.Proofs.Paging.Separation
import CatalogSearch.Proofs.Rosters

/-!
# What is staged for the next page

Turning the page caps an offset again after every status that moves it, and asking for a
next page sums up and compares.  Both agree: the statuses of a group have one cap, so that
capping at every step is capping once, and what is staged lies within the hits of the group
just where its counts leave hits to read.
-/

namespace CatalogSearch

open StatusBoard

namespace StatusBoard

theorem knownHits_perm {statuses others : List Status} (h : statuses.Perm others) :
    knownHits statuses = knownHits others :=
  (h.map _).sum_eq

theorem returned_perm {statuses others : List Status} (h : statuses.Perm others) :
    returned statuses = returned others :=
  (h.map _).sum_eq

theorem sharing_perm (registry : Registry) (key : String) {board other : StatusBoard}
    (h : other.Perm board) : (other.sharing registry key).Perm (board.sharing registry key) :=
  h.filter _

theorem localStatuses_perm (registry : Registry) {board other : StatusBoard}
    (h : other.Perm board) :
    (PageTracker.localStatuses registry other).Perm (PageTracker.localStatuses registry board) :=
  h.filter _

/-- Statuses whose offset is not that of the local sites are of one source. -/
theorem sharing_eq_singleton {registry : Registry} {board : StatusBoard} {status : Status}
    (hids : (board.map Status.id).Nodup) (hstatus : status ∈ board)
    (hfederated : registry.isFederated status.id = true) (hname : status.id ≠ localKey) :
    board.sharing registry status.id = [status] := by
  rw [PageTracker.sharing_of_isFederated hfederated hname,
    Roster.filter_eq_toList_find? Status.id hids, Roster.find?_of_mem Status.id hids hstatus]
  rfl

end StatusBoard

namespace PageTracker

variable {tracker : PageTracker} {registry : Registry} {board other : StatusBoard} {key : String}

/-- The sums that turning the page and asking for a next page form fit a word. -/
structure Fits (tracker : PageTracker) (registry : Registry) (board : StatusBoard) : Prop where
  counts : ∀ status ∈ board,
    (tracker.startOf (registry.offsetKey status.id)).toNat +
      returned (board.sharing registry (registry.offsetKey status.id)) < 2 ^ 64
  localHits : knownHits (localStatuses registry board) + 1 < 2 ^ 64
  siteHits : ∀ status ∈ board, registry.isFederated status.id = true →
    (status.hits.getD 0).toNat + 1 < 2 ^ 64

instance (tracker : PageTracker) (registry : Registry) (board : StatusBoard) :
    Decidable (tracker.Fits registry board) :=
  decidable_of_iff
    ((∀ status ∈ board,
      (tracker.startOf (registry.offsetKey status.id)).toNat +
        returned (board.sharing registry (registry.offsetKey status.id)) < 2 ^ 64) ∧
      knownHits (localStatuses registry board) + 1 < 2 ^ 64 ∧
      ∀ status ∈ board, registry.isFederated status.id = true →
        (status.hits.getD 0).toNat + 1 < 2 ^ 64)
    ⟨fun h => ⟨h.1, h.2.1, h.2.2⟩, fun h => ⟨h.counts, h.localHits, h.siteHits⟩⟩

namespace Fits

theorem start_add_returned (h : tracker.Fits registry board) (key : String) :
    (tracker.startOf key).toNat + returned (board.sharing registry key) < 2 ^ 64 := by
  cases hsharing : board.sharing registry key with
  | nil => exact (tracker.startOf key).toNat_lt
  | cons status rest =>
    obtain ⟨hstatus, -, hkey⟩ := mem_sharing.1 (hsharing ▸ List.mem_cons_self)
    have hcounts := h.counts status hstatus
    rwa [hkey, hsharing] at hcounts

theorem perm (h : tracker.Fits registry board) (hperm : other.Perm board) :
    tracker.Fits registry other where
  counts status hstatus := by
    rw [returned_perm (sharing_perm registry _ hperm)]
    exact h.counts status (hperm.subset hstatus)
  localHits := by
    rw [knownHits_perm (localStatuses_perm registry hperm)]
    exact h.localHits
  siteHits status hstatus := h.siteHits status (hperm.subset hstatus)

/-- Each group reads on where it should. -/
theorem toNat_get_following (h : tracker.Fits registry board) (hsorted : tracker.current.Sorted)
    (hpos : 1 ≤ (tracker.startOf key).toNat) (selected : List String) :
    ((tracker.following selected registry board).get key).toNat =
      exactOffset registry board (tracker.startOf key).toNat (board.sharing registry key) := by
  refine toNat_get_following_of_moves hsorted hpos h.localHits h.siteHits ?_ selected
  intro before status after hsharing
  have hmoved := exactOffset_le_add registry board (tracker.startOf key).toNat before
  have hall := h.start_add_returned key
  rw [hsharing, returned_append, returned_cons] at hall
  omega

end Fits

/-! ## One cap for each group -/

/-- Capping after every status is capping once, if all of them have one cap. -/
theorem exactOffset_eq_min {start cap : Nat} {statuses : List Status} (hne : statuses ≠ [])
    (hcap : ∀ status ∈ statuses, exactCap registry board status = cap) :
    exactOffset registry board start statuses = min (start + returned statuses) cap := by
  induction statuses using List.reverseRecOn with
  | nil => exact absurd rfl hne
  | append_singleton before status ih =>
    have hlast : exactCap registry board status = cap := hcap status (by simp)
    rw [exactOffset_append, hlast, returned_append, returned_singleton]
    by_cases hbefore : before = []
    · rw [hbefore, exactOffset, List.foldl_nil, returned, List.map_nil, List.sum_nil, Nat.zero_add]
    · rw [ih hbefore fun status hstatus => hcap status (List.mem_append_left _ hstatus)]
      omega

/-- The statuses of a group are capped one past the hits of the group. -/
theorem exactCap_eq_of_sharing (hids : (board.map Status.id).Nodup)
    (hname : ∀ status ∈ board, registry.isFederated status.id = true → status.id ≠ localKey)
    {status : Status} (hstatus : status ∈ board.sharing registry key) :
    exactCap registry board status = knownHits (board.sharing registry key) + 1 := by
  obtain ⟨hmem, hcache, rfl⟩ := mem_sharing.1 hstatus
  cases hlocal : registry.isLocal status.id with
  | true => rw [exactCap, Registry.offsetKey, if_pos hlocal, if_pos hlocal, localStatuses_eq hname]
  | false =>
    have hfederated := Registry.isFederated_of_not_isLocal hcache hlocal
    rw [exactCap, Registry.offsetKey, hlocal, if_neg Bool.false_ne_true, if_neg Bool.false_ne_true,
      sharing_eq_singleton hids hmem hfederated (hname status hmem hfederated),
      knownHits_singleton]

/-- A group reads on after what it returned, but not past its hits; without a status it stays
where it is. -/
theorem toNat_get_following_eq (htracker : tracker.current.Sorted)
    (hpos : 1 ≤ (tracker.startOf key).toNat) (hids : (board.map Status.id).Nodup)
    (hname : ∀ status ∈ board, registry.isFederated status.id = true → status.id ≠ localKey)
    (hfits : tracker.Fits registry board) (selected : List String) :
    ((tracker.following selected registry board).get key).toNat =
      if board.sharing registry key = [] then (tracker.startOf key).toNat
      else min ((tracker.startOf key).toNat + returned (board.sharing registry key))
        (knownHits (board.sharing registry key) + 1) := by
  rw [hfits.toNat_get_following htracker hpos]
  split
  · rename_i hnone
    rw [hnone]
    rfl
  · rename_i hsome
    exact exactOffset_eq_min hsome fun status => exactCap_eq_of_sharing hids hname

/-- A group is staged within its hits if its counts leave hits to read. -/
theorem toNat_get_following_le_iff (htracker : tracker.current.Sorted)
    (hpos : 1 ≤ (tracker.startOf key).toNat) (hids : (board.map Status.id).Nodup)
    (hname : ∀ status ∈ board, registry.isFederated status.id = true → status.id ≠ localKey)
    (hfits : tracker.Fits registry board) (selected : List String) :
    ((tracker.following selected registry board).get key).toNat ≤
        knownHits (board.sharing registry key) ↔
      (tracker.startOf key).toNat + returned (board.sharing registry key) ≤
        knownHits (board.sharing registry key) := by
  rw [toNat_get_following_eq htracker hpos hids hname hfits]
  split
  · rename_i hnone
    have hhits : knownHits ([] : List Status) = 0 := rfl
    rw [hnone, hhits]
    omega
  · omega

/-- Whether a next page is offered is whether some group is then read at a hit of its own. -/
theorem hasNext_iff_exists_le_knownHits (htracker : tracker.Reached)
    (hids : (board.map Status.id).Nodup)
    (hname : ∀ status ∈ board, registry.isFederated status.id = true → status.id ≠ localKey)
    (hfits : tracker.Fits registry board) (selected : List String) :
    tracker.hasNext registry board = true ↔
      ∃ key, ((tracker.following selected registry board).get key).toNat ≤
        knownHits (board.sharing registry key) := by
  have hpos (key : String) : 1 ≤ (tracker.startOf key).toNat := htracker.one_le.current key
  have hsum (key : String) := Nat.add_comm _ _ ▸ hfits.start_add_returned key
  have hhits := hfits.localHits
  rw [localStatuses_eq hname] at hhits
  have hsite {status : Status} (hstatus : status ∈ board)
      (hfederated : registry.isFederated status.id = true) :=
    sharing_eq_singleton hids hstatus hfederated (hname status hstatus hfederated)
  have hnext := hasNext_iff hname (Nat.lt_of_succ_lt hhits) (hsum localKey)
    fun status hstatus hfederated => ⟨hpos status.id, by
      have hsiteSum := hsum status.id
      rwa [hsite hstatus hfederated, returned_singleton] at hsiteSum⟩
  simp only [toNat_get_following_le_iff htracker.sorted.current (hpos _) hids hname hfits]
  rw [hnext]
  constructor
  · rintro (hlocal | ⟨status, hstatus, hfederated, hseen⟩)
    · exact ⟨localKey, Nat.add_comm _ _ ▸ hlocal⟩
    · refine ⟨status.id, ?_⟩
      rwa [hsite hstatus hfederated, returned_singleton, knownHits_singleton, Nat.add_comm]
  · rintro ⟨key, hseen⟩
    cases hsharing : board.sharing registry key with
    | nil =>
      -- a group without a status has no hits to read
      have hnone : (tracker.startOf key).toNat ≤ 0 := by rwa [hsharing] at hseen
      exact absurd ((hpos key).trans hnone) (by decide)
    | cons status rest =>
      obtain ⟨hmem, hcache, rfl⟩ := mem_sharing.1 (hsharing ▸ List.mem_cons_self)
      cases hlocal : registry.isLocal status.id with
      | true =>
        rw [Registry.offsetKey, if_pos hlocal, Nat.add_comm] at hseen
        exact .inl hseen
      | false =>
        have hfederated := Registry.isFederated_of_not_isLocal hcache hlocal
        rw [Registry.offsetKey, hlocal, if_neg Bool.false_ne_true, hsite hmem hfederated,
          returned_singleton, knownHits_singleton, Nat.add_comm] at hseen
        exact .inr ⟨status, hmem, hfederated, hseen⟩

/-- Where statuses are of distinct sources, none of them a federated site that bears the name
of the key of the local sites, and no sum passes a word: a federated site reads on after what
it returned, but at most one past its hits, and from its first record if these are unknown.
The local sites read on after all that they returned, but at most one past all of their hits.
The order of the statuses does not matter, and no record is skipped that was not returned.
And a next page is offered just if some group is then staged within its hits. -/
theorem staged_offsets_stay_within_hits (htracker : tracker.Reached)
    (hids : (board.map Status.id).Nodup)
    (hname : ∀ status ∈ board, registry.isFederated status.id = true → status.id ≠ localKey)
    (hfits : tracker.Fits registry board) (selected : List String) :
    let staged := (tracker.advance selected registry board).next
    (∀ status ∈ board, registry.isFederated status.id = true →
      (staged.get status.id).toNat =
        match status.hits with
        | some hits =>
          min ((tracker.startOf status.id).toNat + status.count.toNat) (hits.toNat + 1)
        | none => 1) ∧
    (localStatuses registry board ≠ [] →
      (staged.get localKey).toNat =
        min ((tracker.startOf localKey).toNat + returned (localStatuses registry board))
          (knownHits (localStatuses registry board) + 1)) ∧
    (∀ other : StatusBoard, other.Perm board → ∀ key,
      (tracker.advance selected registry other).next.get key = staged.get key) ∧
    (∀ status ∈ board, status.id ≠ Source.cacheId →
      let key := registry.offsetKey status.id
      1 ≤ (staged.get key).toNat ∧
        (staged.get key).toNat ≤ knownHits (board.sharing registry key) + 1 ∧
        (staged.get key).toNat ≤
          (tracker.startOf key).toNat + returned (board.sharing registry key)) ∧
    (tracker.hasNext registry board = true ↔
      ∃ key, (staged.get key).toNat ≤ knownHits (board.sharing registry key)) := by
  intro staged
  have hsorted := htracker.sorted.current
  have hpos (key : String) : 1 ≤ (tracker.startOf key).toNat := htracker.one_le.current key
  have hget (key : String) : (staged.get key).toNat = _ :=
    toNat_get_following_eq hsorted (hpos key) hids hname hfits selected
  refine ⟨fun status hstatus hfederated => ?_, fun hlocal => ?_, fun other hperm key => ?_,
    fun status hstatus hcache => ?_,
    hasNext_iff_exists_le_knownHits htracker hids hname hfits selected⟩
  · have hsharing :=
      sharing_eq_singleton hids hstatus hfederated (hname status hstatus hfederated)
    have hstart := hpos status.id
    rw [hget, hsharing, if_neg (List.cons_ne_nil _ _), returned_singleton, knownHits_singleton]
    cases status.hits with
    | some hits => rfl
    | none => exact Nat.min_eq_right (Nat.le_add_right_of_le hstart)
  · rw [localStatuses_eq hname] at hlocal ⊢
    rw [hget, if_neg hlocal]
  · have hids' : (other.map Status.id).Nodup := (hperm.map Status.id).nodup_iff.2 hids
    have hsharing := sharing_perm registry key hperm
    rw [← UInt64.toNat_inj, hget]
    refine (toNat_get_following_eq hsorted (hpos key) hids'
      (fun status hstatus => hname status (hperm.subset hstatus)) (hfits.perm hperm)
      selected).trans ?_
    rw [returned_perm hsharing, knownHits_perm hsharing]
    refine if_congr ?_ rfl rfl
    rw [← List.length_eq_zero_iff, ← List.length_eq_zero_iff, hsharing.length_eq]
  · intro key
    have hstart := hpos key
    have hshared : board.sharing registry key ≠ [] :=
      List.ne_nil_of_mem (mem_sharing.2 ⟨hstatus, hcache, rfl⟩)
    rw [hget, if_neg hshared]
    omega

/-- A catalog and its annex, and two federated sites. -/
def annexAndSites : Registry :=
  [⟨"annex", .localSite, true⟩, ⟨"site", .federatedSite, true⟩,
    ⟨"dark", .federatedSite, true⟩].foldl Registry.register (.create "home" true)

/-- A round of them, in which one site is read through and the other does not answer. -/
def readThrough : StatusBoard :=
  let told (id : String) (hits count : UInt64) : Status :=
    { Status.asked id with pending := false, hits := some hits, count }
  [told "home" 30 10, told "site" 7 7, .asked "dark", told "annex" 5 5, told "cache" 90 10]

theorem read_through_site_is_staged_at_end :
    let staged := (fresh.advance ["home", "annex", "site", "dark"] annexAndSites readThrough).next
    (staged.get localKey).toNat = 16 ∧ (staged.get "site").toNat = 8 ∧
      (staged.get "dark").toNat = 1 ∧ fresh.hasNext annexAndSites readThrough = true := by
  intro staged
  have hids : (readThrough.map Status.id).Nodup := by decide
  have hfits : fresh.Fits annexAndSites readThrough := by decide
  obtain ⟨hsites, hlocal, -, -, hnext⟩ := staged_offsets_stay_within_hits .fresh hids (by decide)
    hfits ["home", "annex", "site", "dark"]
  have hcatalog : (staged.get localKey).toNat = 16 := hlocal (by decide)
  refine ⟨hcatalog, hsites _ (.tail _ (.head _)) (by decide),
    hsites _ (.tail _ (.tail _ (.head _))) (by decide), hnext.2 ⟨localKey, ?_⟩⟩
  rw [hcatalog]
  decide

end PageTracker

end CatalogSearch
