import CatalogSearch.Proofs.Paging.Groups
import CatalogSearch.Proofs.Session.Reading

/-!
# Pages of an archive

A page is the part of an archive that one round reads: of each group as many records as
fit on a page, behind those of the pages before.  If the offsets are staged for a page, a
search sends requests for it; once the round has settled the board shows it; and turning
the page stages the offsets of the next one.
-/

namespace CatalogSearch

namespace Session

/-- The groups in which a session reads its sources. -/
def sourceGroups (session : Session) : List Group :=
  session.registry.sourceGroups session.selectedSources

/-- The number of records of a group on a page. -/
def perPage (session : Session) : Nat := session.surroundings.pageSize.toNat

/-- What a session needs to read the pages of an archive. -/
structure Readable (archive : Archive) (session : Session) : Prop where
  unhooked : session.surroundings.hook = none
  filter : session.query.filter.isEmpty = false
  pageSize : session.surroundings.pageSize ≠ 0
  nodup : session.selectedSources.Nodup
  real : ∃ id ∈ session.selectedSources, id ≠ Source.cacheId
  named : ∀ id ∈ session.selectedSources, session.registry.isFederated id = true → id ≠ localKey
  /-- The offset behind the last record of a group is a word. -/
  bounded : ∀ group ∈ session.sourceGroups, (archive.records group).length + 1 < 2 ^ 64

theorem Readable.perPage_pos {archive : Archive} {session : Session}
    (h : session.Readable archive) : 0 < session.perPage := by
  refine Nat.pos_of_ne_zero fun hzero => h.pageSize ?_
  exact UInt32.toNat_inj.1 hzero

/-- The same sources are searched for the same filter. -/
structure Continues (first session : Session) : Prop where
  surroundings : session.surroundings = first.surroundings
  filter : session.query.filter = first.query.filter
  selected : session.selectedSources = first.selectedSources

theorem Continues.refl (session : Session) : session.Continues session := ⟨rfl, rfl, rfl⟩

theorem Continues.registry {first session : Session} (h : first.Continues session) :
    session.registry = first.registry := by
  rw [Session.registry, h.surroundings, Session.registry]

/-- A search that was prepared still goes for the same. -/
theorem Continues.prepared {first before after : Session} (h : first.Continues before)
    (hprepared : Prepared before after) : first.Continues after := by
  have hquery := hprepared.query
  have hregistry : after.registry = before.registry :=
    congrArg Surroundings.registry hprepared.surroundings
  constructor
  · rw [hprepared.surroundings, h.surroundings]
  · rw [hquery]
    exact h.filter
  · rw [selectedSources, hquery, hregistry]
    exact h.selected

theorem Continues.keeps {first before after : Session} (h : first.Continues before)
    (hkeeps : Keeps before after) : first.Continues after := by
  have hregistry : after.registry = before.registry :=
    congrArg Surroundings.registry hkeeps.surroundings
  constructor
  · rw [hkeeps.surroundings, h.surroundings]
  · rw [hkeeps.query, h.filter]
  · rw [selectedSources, hkeeps.query, hregistry]
    exact h.selected

/-- A session that searches for the same as one that can read an archive is not refused. -/
theorem Continues.starts {archive : Archive} {first session : Session}
    (h : first.Continues session) (hfirst : first.Readable archive) (options : SearchOptions) :
    session.Starts options := by
  constructor
  · rw [h.filter]
    exact hfirst.filter
  · intro hzero
    rw [h.surroundings] at hzero
    exact absurd hzero hfirst.pageSize

/-- Without a hook the same sources are asked, in the same groups. -/
theorem Continues.roundRequests_eq {archive : Archive} {first session : Session}
    (h : first.Continues session) (hfirst : first.Readable archive) (options : SearchOptions) :
    session.roundRequests options =
      (session.baseRequest options).split first.selectedSources first.registry
        session.tracker.beginRound := by
  have hhook : session.surroundings.hook = none := by
    rw [h.surroundings]
    exact hfirst.unhooked
  rw [roundRequests_of_unhooked hhook, h.selected, h.registry]

end Session

/-! ## Where a group is read -/

/-- On a page, a group of some size is read behind the records of the pages before, and as
many records are returned as are left and fit. -/
structure Position (perPage page size start hits count : Nat) : Prop where
  start : start = min (page * perPage) size + 1
  hits : hits = size
  count : count = min perPage (size - min (page * perPage) size)

namespace Position

variable {perPage page size start hits count : Nat}

theorem next (h : Position perPage page size start hits count) :
    start + count = min ((page + 1) * perPage) size + 1 := by
  rw [h.start, h.count, Nat.succ_mul]
  omega

theorem le (h : Position perPage page size start hits count) : start + count ≤ hits + 1 := by
  rw [h.next, h.hits]
  omega

/-- Hits lie past what was read if and only if the next page has records of the group. -/
theorem more_iff (h : Position perPage page size start hits count) :
    count + start ≤ hits ↔ (page + 1) * perPage < size := by
  rw [Nat.add_comm count, h.next, h.hits]
  omega

theorem empty (perPage page : Nat) : Position perPage page 0 1 0 0 := by
  constructor <;> simp

end Position

namespace Archive

open StatusBoard

/-- Each group is to be read from a page on. -/
structure Staged (archive : Archive) (first : Session) (page : Nat) (offsets : Offsets) :
    Prop where
  sorted : offsets.Sorted
  start : ∀ group ∈ first.sourceGroups, (offsets.get group.key).toNat =
    min (page * first.perPage) (archive.records group).length + 1
  unused : .localSites ∉ first.sourceGroups → (offsets.get localKey).toNat = 1

/-- The board tells of each group what was read of it on a page. -/
structure Shown (archive : Archive) (first : Session) (page : Nat) (session : Session) :
    Prop where
  continues : first.Continues session
  staged : archive.Staged first page session.tracker.current
  ids : session.statuses.map Status.id = first.registry.askedIds first.selectedSources
  told : ∀ group ∈ first.sourceGroups,
    let statuses := (first.registry.groupSources first.selectedSources group).map
      session.statuses.status
    knownHits statuses = (archive.records group).length ∧
      returned statuses = min first.perPage ((archive.records group).length -
        min (page * first.perPage) (archive.records group).length)

theorem staged_fresh (archive : Archive) (first : Session) : archive.Staged first 0 .empty where
  sorted := Table.sorted_nil
  start group _ := by rw [Offsets.get_empty, Nat.zero_mul, Nat.zero_min]; rfl
  unused _ := rfl

variable {archive : Archive} {first session : Session} {page : Nat}

namespace Shown

theorem distinct (h : archive.Shown first page session) (hfirst : first.Readable archive) :
    session.statuses.Distinct := by
  rw [Distinct, h.ids]
  exact Registry.nodup_askedIds hfirst.nodup

/-- The statuses that share the offset of a group are those of its sources. -/
theorem sharing_key (h : archive.Shown first page session) (hfirst : first.Readable archive)
    {group : Group} (hgroup : group ∈ first.sourceGroups) :
    session.statuses.sharing first.registry group.key =
      (first.registry.groupSources first.selectedSources group).map session.statuses.status := by
  rw [sharing_eq (h.distinct hfirst), h.ids,
    Registry.filter_askedIds_key hfirst.named hfirst.nodup hgroup]

theorem position (h : archive.Shown first page session) (hfirst : first.Readable archive)
    {group : Group} (hgroup : group ∈ first.sourceGroups) :
    Position first.perPage page (archive.records group).length
      (session.tracker.startOf group.key).toNat
      (knownHits (session.statuses.sharing first.registry group.key))
      (returned (session.statuses.sharing first.registry group.key)) := by
  rw [h.sharing_key hfirst hgroup]
  obtain ⟨hhits, hcount⟩ := h.told group hgroup
  exact ⟨h.staged.start group hgroup, hhits, hcount⟩

/-- Local sites that are not selected are a group of no records. -/
theorem position_unused (h : archive.Shown first page session) (hfirst : first.Readable archive)
    (hlocal : .localSites ∉ first.sourceGroups) :
    Position first.perPage page 0 (session.tracker.startOf localKey).toNat
      (knownHits (session.statuses.sharing first.registry localKey))
      (returned (session.statuses.sharing first.registry localKey)) := by
  have hnone : first.selectedSources.filter first.registry.isLocal = [] := by
    by_contra hsome
    exact hlocal (Registry.mem_sourceGroups.2 (.inl ⟨rfl, hsome⟩))
  have hsharing : session.statuses.sharing first.registry localKey = [] := by
    rw [sharing_eq (h.distinct hfirst), h.ids,
      Registry.filter_askedIds_localKey hfirst.named, hnone]
    rfl
  have hstart : (session.tracker.startOf localKey).toNat = 1 := h.staged.unused hlocal
  rw [hsharing, hstart]
  exact .empty first.perPage page

/-- Where the local sites are read, be they selected or not. -/
theorem position_local (h : archive.Shown first page session) (hfirst : first.Readable archive) :
    ∃ size,
      Position first.perPage page size (session.tracker.startOf localKey).toNat
        (knownHits (session.statuses.sharing first.registry localKey))
        (returned (session.statuses.sharing first.registry localKey)) ∧
      size + 1 < 2 ^ 64 ∧
      ((page + 1) * first.perPage < size ↔ .localSites ∈ first.sourceGroups ∧
        (page + 1) * first.perPage < (archive.records .localSites).length) := by
  by_cases hlocal : .localSites ∈ first.sourceGroups
  · exact ⟨_, h.position hfirst hlocal, hfirst.bounded _ hlocal, by simp [hlocal]⟩
  · exact ⟨0, h.position_unused hfirst hlocal, by decide, by simp [hlocal]⟩

/-- A federated site on the board is a group of its own. -/
theorem site_mem (h : archive.Shown first page session) {status : Status}
    (hstatus : status ∈ session.statuses) (hsite : first.registry.isFederated status.id = true) :
    .site status.id ∈ first.sourceGroups := by
  have hid : status.id ∈ first.registry.askedIds first.selectedSources :=
    h.ids ▸ List.mem_map_of_mem hstatus
  exact Registry.mem_sourceGroups.2
    (.inr ⟨status.id, Registry.mem_of_mem_askedIds hid hsite, rfl⟩)

/-- Only a federated site shares its offset with no other source. -/
theorem sharing_site (h : archive.Shown first page session) (hfirst : first.Readable archive)
    {status : Status} (hstatus : status ∈ session.statuses)
    (hsite : first.registry.isFederated status.id = true) :
    session.statuses.sharing first.registry status.id = [status] := by
  have hsharing := h.sharing_key hfirst (h.site_mem hstatus hsite)
  have hfind : session.statuses.find? status.id = some status :=
    Roster.find?_of_mem Status.id (h.distinct hfirst) hstatus
  have hself : session.statuses.status status.id = status := by
    rw [StatusBoard.status, hfind]
    rfl
  exact hsharing.trans (congrArg (fun status => [status]) hself)

theorem position_site (h : archive.Shown first page session) (hfirst : first.Readable archive)
    {status : Status} (hstatus : status ∈ session.statuses)
    (hsite : first.registry.isFederated status.id = true) :
    Position first.perPage page (archive.records (.site status.id)).length
      (session.tracker.startOf status.id).toNat (status.hits.getD 0).toNat
      status.count.toNat := by
  have hposition := h.position hfirst (h.site_mem hstatus hsite)
  have hsharing := h.sharing_site hfirst hstatus hsite
  rw [Group.key, hsharing] at hposition
  exact hposition

theorem named (h : archive.Shown first page session) (hfirst : first.Readable archive) :
    ∀ status ∈ session.statuses, first.registry.isFederated status.id = true →
      status.id ≠ localKey := by
  intro status hstatus hsite
  have hid : status.id ∈ first.registry.askedIds first.selectedSources :=
    h.ids ▸ List.mem_map_of_mem hstatus
  have hmem := (List.mem_filter.1 (Registry.mem_of_mem_askedIds hid hsite)).1
  exact hfirst.named status.id hmem hsite

/-- There is a next page if and only if it has records of some group. -/
theorem hasNextPage_iff (h : archive.Shown first page session) (hfirst : first.Readable archive) :
    session.hasNextPage = true ↔
      ∃ group ∈ first.sourceGroups,
        (page + 1) * first.perPage < (archive.records group).length := by
  obtain ⟨size, hlocal, hsize, hmore⟩ := h.position_local hfirst
  have hsites : ∀ status ∈ session.statuses, first.registry.isFederated status.id = true →
      1 ≤ (session.tracker.startOf status.id).toNat ∧
        status.count.toNat + (session.tracker.startOf status.id).toNat < 2 ^ 64 := by
    intro status hstatus hsite
    have hposition := h.position_site hfirst hstatus hsite
    have hbounded := hfirst.bounded _ (h.site_mem hstatus hsite)
    have := hposition.le
    have := hposition.hits
    have := hposition.start
    omega
  have hhits := hlocal.hits
  have hle := hlocal.le
  rw [Session.hasNextPage, h.continues.registry,
    PageTracker.hasNext_iff (h.named hfirst) (by omega) (by omega) hsites, hlocal.more_iff, hmore]
  constructor
  · rintro (⟨hgroup, hlt⟩ | ⟨status, hstatus, hsite, hle⟩)
    · exact ⟨_, hgroup, hlt⟩
    · have hlt := (h.position_site hfirst hstatus hsite).more_iff.1 hle
      exact ⟨_, h.site_mem hstatus hsite, hlt⟩
  · rintro ⟨group, hgroup, hlt⟩
    obtain ⟨rfl, -⟩ | ⟨id, hid, rfl⟩ := Registry.mem_sourceGroups.1 hgroup
    · exact .inl ⟨hgroup, hlt⟩
    · have hid' : id ∈ session.statuses.map Status.id := by
        rw [h.ids]
        exact Registry.mem_askedIds_of_isFederated hid
      obtain ⟨status, hstatus, rfl⟩ := List.mem_map.1 hid'
      have hsite := (List.mem_filter.1 hid).2
      exact .inr ⟨status, hstatus, hsite, (h.position_site hfirst hstatus hsite).more_iff.2 hlt⟩

/-- The caps of the statuses that share an offset lie one past their hits. -/
theorem toNat_capOf (h : archive.Shown first page session) (hfirst : first.Readable archive)
    {key : String} {status : Status}
    (hstatus : status ∈ session.statuses.sharing first.registry key) :
    (PageTracker.capOf first.registry (PageTracker.localCap first.registry session.statuses)
        status).toNat =
      knownHits (session.statuses.sharing first.registry key) + 1 := by
  obtain ⟨hmem, hcache, hkey⟩ := mem_sharing.1 hstatus
  rw [Registry.offsetKey] at hkey
  cases hlocal : first.registry.isLocal status.id with
  | true =>
    obtain ⟨size, hposition, hsize, -⟩ := h.position_local hfirst
    rw [← hposition.hits] at hsize
    rw [hlocal, if_pos rfl] at hkey
    subst hkey
    exact PageTracker.toNat_capOf_of_local hlocal (h.named hfirst) hsize
  | false =>
    have hsite := Registry.isFederated_of_not_isLocal hcache hlocal
    have hbounded := hfirst.bounded _ (h.site_mem hmem hsite)
    rw [hlocal, if_neg Bool.false_ne_true] at hkey
    subst hkey
    rw [← (h.position_site hfirst hmem hsite).hits] at hbounded
    rw [h.sharing_site hfirst hmem hsite]
    exact PageTracker.toNat_capOf_of_site hlocal hbounded

/-- Turning the page moves the offset of a group behind what was read. -/
theorem get_following (h : archive.Shown first page session) (hfirst : first.Readable archive)
    {key : String} {size : Nat}
    (hposition : Position first.perPage page size (session.tracker.startOf key).toNat
      (knownHits (session.statuses.sharing first.registry key))
      (returned (session.statuses.sharing first.registry key))) :
    ((session.tracker.following session.selectedSources session.registry session.statuses).get
        key).toNat = min ((page + 1) * first.perPage) size + 1 := by
  have hpos : 1 ≤ (session.tracker.startOf key).toNat := by
    rw [hposition.start]
    exact Nat.succ_pos _
  rw [h.continues.registry, PageTracker.get_following h.staged.sorted hpos, hposition.next]
  intro status hstatus
  rw [h.toNat_capOf hfirst hstatus]
  exact hposition.le

/-- Turning the page stages the offsets of the next one. -/
theorem staged_following (h : archive.Shown first page session) (hfirst : first.Readable archive) :
    archive.Staged first (page + 1) (session.tracker.following session.selectedSources
      session.registry session.statuses) where
  sorted := PageTracker.sorted_following _ _
  start group hgroup := h.get_following hfirst (h.position hfirst hgroup)
  unused hlocal := by
    rw [h.get_following hfirst (h.position_unused hfirst hlocal), Nat.min_zero]

end Shown

end Archive

end CatalogSearch
