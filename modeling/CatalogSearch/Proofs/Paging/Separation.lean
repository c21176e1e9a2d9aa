import CatalogSearch.Proofs.Paging.Groups

/-!
# Offsets of different groups

All offsets stand in one table, that of the local sites under a key of its own and those of
federated sites under their ids.  The groups keep apart as long as no federated site bears
the name of that key: no two of them read at the same key, and what is staged for one depends
on its own offset and its own statuses, whatever becomes of the others.
-/

namespace CatalogSearch

open StatusBoard

namespace PageTracker

variable {registry : Registry} {board : StatusBoard} {key : String}

/-- What is staged at a key depends on the offset there and on the statuses that share it. -/
theorem get_following_congr {tracker other : PageTracker} {selected others : List String}
    {board' : StatusBoard} (htracker : tracker.current.Sorted) (hother : other.current.Sorted)
    (hstart : tracker.startOf key = other.startOf key)
    (hsharing : board.sharing registry key = board'.sharing registry key)
    (hlocal : key = localKey → localStatuses registry board = localStatuses registry board') :
    (tracker.following selected registry board).get key =
      (other.following others registry board').get key := by
  rw [get_following_eq_foldl htracker, get_following_eq_foldl hother, hstart, hsharing]
  refine List.foldl_ext _ _ _ fun offset status hstatus => ?_
  obtain ⟨-, -, hkey⟩ := mem_sharing.1 hstatus
  rw [onward, onward, capOf, capOf]
  split
  · rename_i hstatusLocal
    rw [Registry.offsetKey, if_pos hstatusLocal] at hkey
    rw [localCap, localCap, hlocal hkey.symm]
  · rfl

/-- Only a federated site reads at its key. -/
theorem sharing_of_isFederated {id : String} (hfederated : registry.isFederated id = true)
    (hname : id ≠ localKey) :
    board.sharing registry id = board.filter fun status => status.id == id := by
  refine List.filter_congr fun status _ => ?_
  rw [Bool.eq_iff_iff, Bool.and_eq_true, bne_iff_ne, beq_iff_eq, beq_iff_eq, Registry.offsetKey]
  constructor
  · rintro ⟨-, hkey⟩
    split at hkey
    · exact absurd hkey.symm hname
    · exact hkey
  · rintro rfl
    rw [Registry.isLocal_of_isFederated hfederated]
    exact ⟨Registry.ne_cacheId_of_isFederated hfederated, rfl⟩

end PageTracker

/-- Groups are told apart by their keys, unless a site bears the name of one. -/
theorem Group.key_injective {group other : Group}
    (hgroup : ∀ id, group = .site id → id ≠ localKey ∧ id ≠ Source.cacheId)
    (hother : ∀ id, other = .site id → id ≠ localKey ∧ id ≠ Source.cacheId)
    (h : group.key = other.key) : group = other := by
  have hkeys : localKey ≠ Source.cacheId := by decide
  cases group with
  | localSites =>
    cases other with
    | localSites => rfl
    | site id => exact absurd h.symm (hother id rfl).1
    | cache => exact absurd h hkeys
  | site id =>
    cases other with
    | localSites => exact absurd h (hgroup id rfl).1
    | site other => exact congrArg Group.site h
    | cache => exact absurd h (hgroup id rfl).2
  | cache =>
    cases other with
    | localSites => exact absurd h.symm hkeys
    | site id => exact absurd h.symm (hother id rfl).2
    | cache => rfl

theorem Request.isFederated_of_mem_split {base request : Request} {registry : Registry}
    {selected : List String} {tracker : PageTracker} {id : String}
    (hrequest : request ∈ base.split selected registry tracker) (h : request.group = .site id) :
    id ∈ selected ∧ registry.isFederated id = true := by
  obtain ⟨rfl, -⟩ | ⟨other, hother, rfl⟩ | ⟨rfl, -⟩ := mem_split.1 hrequest
  · cases h
  · cases h
    exact List.mem_filter.1 hother
  · cases h

namespace PageTracker

/-- As long as no federated site bears the name of the key of the local sites, no two groups
of a round read at the same key, what is staged for the local sites depends on their offset
and on their statuses, and what is staged for a federated site on its offset and its
statuses. -/
theorem groups_keep_apart (registry : Registry) :
    (∀ (base : Request) (selected : List String) (tracker : PageTracker),
      (∀ id ∈ selected, registry.isFederated id = true → id ≠ localKey) →
        ∀ request ∈ base.split selected registry tracker,
          ∀ other ∈ base.split selected registry tracker,
            request.group ≠ other.group → request.group.key ≠ other.group.key) ∧
    ∀ tracker other : PageTracker, tracker.Reached → other.Reached →
      ∀ (selected others : List String) (board board' : StatusBoard),
        let staged := (tracker.advance selected registry board).next
        let staged' := (other.advance others registry board').next
        ((∀ status ∈ board ++ board', registry.isFederated status.id = true →
            status.id ≠ localKey) →
          tracker.startOf localKey = other.startOf localKey →
          localStatuses registry board = localStatuses registry board' →
            staged.get localKey = staged'.get localKey) ∧
        ∀ id ≠ localKey, registry.isFederated id = true →
          tracker.startOf id = other.startOf id →
          board.filter (fun status => status.id == id) =
            board'.filter (fun status => status.id == id) →
              staged.get id = staged'.get id := by
  constructor
  · intro base selected tracker hname request hrequest other hother hne hkey
    have hsite {request : Request} (hrequest : request ∈ base.split selected registry tracker)
        (id : String) (hgroup : request.group = .site id) :
        id ≠ localKey ∧ id ≠ Source.cacheId := by
      obtain ⟨hid, hfederated⟩ := Request.isFederated_of_mem_split hrequest hgroup
      exact ⟨hname id hid hfederated, Registry.ne_cacheId_of_isFederated hfederated⟩
    exact hne (Group.key_injective (hsite hrequest) (hsite hother) hkey)
  · intro tracker other htracker hother selected others board board' staged staged'
    have hsorted := htracker.sorted.current
    have hsorted' := hother.sorted.current
    constructor
    · intro hname hstart hlocal
      obtain ⟨hboard, hboard'⟩ := List.forall_mem_append.1 hname
      refine get_following_congr hsorted hsorted' hstart ?_ fun _ => hlocal
      rw [← localStatuses_eq hboard, ← localStatuses_eq hboard', hlocal]
    · intro id hid hfederated hstart hstatuses
      refine get_following_congr hsorted hsorted' hstart ?_ fun heq => absurd heq hid
      rw [sharing_of_isFederated hfederated hid, sharing_of_isFederated hfederated hid, hstatuses]

/-- A round of a local catalog and one federated site. -/
def roundOfTwo (site : String) : List Request :=
  Request.split
    { sources := [], cql := "title IS NULL", start := 1, count := 10, sorts := [],
      timeout := 1000, queryId := "query", round := 1, spellcheck := false, phonetics := false,
      group := .localSites }
    ["home", site] ((Registry.create "home" false).register ⟨site, .federatedSite, true⟩) .fresh

/-- What is staged for the local sites after that round, if the catalog returned ten of its
thirty records and the site some of as many as it has. -/
def stagedAfterTwo (site : String) (hits : UInt64) : UInt64 :=
  let told (id : String) (hits count : UInt64) : Status :=
    { Status.asked id with pending := false, hits := some hits, count }
  (PageTracker.fresh.advance ["home", site]
    ((Registry.create "home" false).register ⟨site, .federatedSite, true⟩)
    [told "home" 30 10, told site hits hits]).next.get localKey

theorem catalog_keeps_apart_from_site :
    (∀ request ∈ roundOfTwo "site", ∀ other ∈ roundOfTwo "site",
      request.group ≠ other.group → request.group.key ≠ other.group.key) ∧
      stagedAfterTwo "site" 0 = stagedAfterTwo "site" 5 ∧ stagedAfterTwo "site" 5 = 11 := by
  have hapart := groups_keep_apart
    ((Registry.create "home" false).register ⟨"site", .federatedSite, true⟩)
  refine ⟨hapart.1 _ ["home", "site"] .fresh (by decide), ?_, by decide⟩
  exact (hapart.2 .fresh .fresh .fresh .fresh _ _ _ _).1 (by decide) rfl rfl

/-- A federated site that bears the name of the key is read at the offset of the local sites,
and moves it back to its own end. -/
theorem site_of_reserved_name_moves_catalog :
    (∃ request ∈ roundOfTwo "local", ∃ other ∈ roundOfTwo "local",
      request.group ≠ other.group ∧ request.group.key = other.group.key) ∧
      stagedAfterTwo "local" 0 ≠ stagedAfterTwo "local" 5 ∧ stagedAfterTwo "local" 5 = 6 := by
  decide

end PageTracker

end CatalogSearch
