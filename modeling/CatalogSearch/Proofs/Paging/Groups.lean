import CatalogSearch.Proofs.Paging.Advance
import CatalogSearch.Proofs.Session.Sending
import Mathlib.Data.List.Nodup

/-!
# The groups of a selection

The sources of a selection are read in groups: the local sites together, and each
federated site on its own.  A round holds one request for each of these groups, and
maybe one for the cache, and no source is asked twice.
-/

namespace CatalogSearch

namespace Registry

/-- The groups in which the sources of a selection are read.  The cache is none of them. -/
def sourceGroups (registry : Registry) (selected : List String) : List Group :=
  (if (selected.filter registry.isLocal).isEmpty then [] else [.localSites]) ++
    (selected.filter registry.isFederated).map .site

/-- The sources of a group. -/
def groupSources (registry : Registry) (selected : List String) : Group → List String
  | .localSites => selected.filter registry.isLocal
  | .site id => [id]
  | .cache => [Source.cacheId]

variable {registry : Registry} {selected : List String} {id : String}

theorem ne_cacheId_of_isFederated (h : registry.isFederated id = true) : id ≠ Source.cacheId := by
  rintro rfl
  rw [isFederated_cacheId] at h
  cases h

theorem ne_cacheId_of_isLocal (h : registry.isLocal id = true) : id ≠ Source.cacheId := by
  rintro rfl
  rw [isLocal_cacheId] at h
  cases h

theorem isLocal_of_isFederated (h : registry.isFederated id = true) :
    registry.isLocal id = false := by
  rw [registry.isFederated_eq_not_isLocal (ne_cacheId_of_isFederated h), Bool.not_eq_true'] at h
  exact h

theorem isFederated_of_not_isLocal (hcache : id ≠ Source.cacheId)
    (h : registry.isLocal id = false) : registry.isFederated id = true := by
  rw [registry.isFederated_eq_not_isLocal hcache, h]
  rfl

theorem mem_sourceGroups {group : Group} :
    group ∈ registry.sourceGroups selected ↔
      (group = .localSites ∧ selected.filter registry.isLocal ≠ []) ∨
        ∃ id ∈ selected.filter registry.isFederated, group = .site id := by
  rw [sourceGroups, List.mem_append, List.mem_ite_nil_left, List.mem_singleton, List.mem_map,
    List.isEmpty_iff, and_comm]
  exact or_congr Iff.rfl (by simp only [eq_comm])

theorem ne_cache_of_mem_sourceGroups {group : Group} (h : group ∈ registry.sourceGroups selected) :
    group ≠ .cache := by
  obtain ⟨rfl, -⟩ | ⟨id, -, rfl⟩ := mem_sourceGroups.1 h <;> nofun

theorem nodup_sourceGroups (h : selected.Nodup) : (registry.sourceGroups selected).Nodup := by
  have hsites : ((selected.filter registry.isFederated).map Group.site).Nodup :=
    (h.filter _).map fun _ _ => Group.site.inj
  rw [sourceGroups]
  split
  · exact hsites
  · exact List.nodup_cons.2 ⟨by simp, hsites⟩

/-- A selection of a source but the cache has a group. -/
theorem sourceGroups_ne_nil (h : ∃ id ∈ selected, id ≠ Source.cacheId) :
    registry.sourceGroups selected ≠ [] := by
  obtain ⟨id, hid, hcache⟩ := h
  cases hlocal : registry.isLocal id with
  | true =>
    have hmem := List.mem_filter.2 ⟨hid, hlocal⟩
    exact List.ne_nil_of_mem (mem_sourceGroups.2 (.inl ⟨rfl, List.ne_nil_of_mem hmem⟩))
  | false =>
    have hmem := List.mem_filter.2 ⟨hid, isFederated_of_not_isLocal hcache hlocal⟩
    exact List.ne_nil_of_mem (mem_sourceGroups.2 (.inr ⟨id, hmem, rfl⟩))

/-- No source of a selection but the cache is outside of its groups. -/
theorem flatMap_groupSources (registry : Registry) (selected : List String) :
    (registry.sourceGroups selected).flatMap (registry.groupSources selected) =
      selected.filter registry.isLocal ++ selected.filter registry.isFederated := by
  have hsites (ids : List String) :
      (ids.map Group.site).flatMap (registry.groupSources selected) = ids := by
    rw [List.flatMap_map]
    exact List.flatMap_singleton' ids
  rw [sourceGroups, List.flatMap_append, hsites]
  split
  · rename_i hempty
    rw [List.isEmpty_iff.1 hempty]
    rfl
  · rw [List.flatMap_singleton]
    rfl

/-- All sources that a round asks, in the order of its requests. -/
def askedIds (registry : Registry) (selected : List String) : List String :=
  selected.filter registry.isLocal ++ selected.filter registry.isFederated ++
    if registry.cacheEnabled && !(selected.filter fun id => id != Source.cacheId).isEmpty then
      [Source.cacheId]
    else []

theorem nodup_askedIds (h : selected.Nodup) : (registry.askedIds selected).Nodup := by
  have hreal : (selected.filter registry.isLocal ++ selected.filter registry.isFederated).Nodup :=
    List.nodup_append.2 ⟨h.filter _, h.filter _, by
      rintro id hlocal _ hfederated rfl
      have := isLocal_of_isFederated (List.mem_filter.1 hfederated).2
      rw [(List.mem_filter.1 hlocal).2] at this
      cases this⟩
  rw [askedIds]
  split
  · refine List.nodup_append.2 ⟨hreal, List.nodup_singleton _, ?_⟩
    rintro id hid _ hcache rfl
    rw [List.mem_singleton.1 hcache, List.mem_append, List.mem_filter, List.mem_filter,
      isLocal_cacheId, isFederated_cacheId] at hid
    simp at hid
  · rw [List.append_nil]
    exact hreal

/-- The groups that a round asks, in the order of its requests. -/
def askedGroups (registry : Registry) (selected : List String) : List Group :=
  registry.sourceGroups selected ++
    if registry.cacheEnabled && !(selected.filter fun id => id != Source.cacheId).isEmpty then
      [.cache]
    else []

end Registry

/-- What a request reads: a group with its sources, and from which record on. -/
structure Place where
  group : Group
  sources : List String
  start : UInt64
deriving DecidableEq, Repr

def Request.place (request : Request) : Place := ⟨request.group, request.sources, request.start⟩

/-- What a round reads that begins at some offsets. -/
def Registry.placesAt (registry : Registry) (selected : List String) (offsets : Offsets) :
    List Place :=
  (registry.askedGroups selected).map fun group =>
    ⟨group, registry.groupSources selected group, offsets.get group.key⟩

namespace Request

variable {base : Request} {registry : Registry} {selected : List String} {tracker : PageTracker}

/-- A round holds a request for each group, and maybe one for the cache. -/
theorem split_eq (base : Request) (selected : List String) (registry : Registry)
    (tracker : PageTracker) :
    base.split selected registry tracker =
      (registry.sourceGroups selected).map (fun group =>
        base.forGroup tracker group (registry.groupSources selected group)) ++
      if registry.cacheEnabled && !(selected.filter fun id => id != Source.cacheId).isEmpty then
        [{ base.forGroup tracker .cache [Source.cacheId] with
          cql := narrow base.cql (selected.filter fun id => id != Source.cacheId) }]
      else [] := by
  rw [split, Registry.sourceGroups, List.map_append, List.map_map]
  split <;> rfl

/-- What a round reads: each of its groups, from the offset of the group on. -/
theorem map_place_split :
    (base.split selected registry tracker).map place =
      registry.placesAt selected tracker.current := by
  rw [split_eq, List.map_append, List.map_map, Registry.placesAt, Registry.askedGroups,
    List.map_append]
  split <;> rfl

/-- A selection of a source but the cache has a request. -/
theorem split_ne_nil (h : ∃ id ∈ selected, id ≠ Source.cacheId) :
    base.split selected registry tracker ≠ [] := by
  rw [split_eq]
  refine List.append_ne_nil_of_left_ne_nil ?_ _
  rw [Ne, List.map_eq_nil_iff]
  exact Registry.sourceGroups_ne_nil h

theorem flatMap_sources_split :
    (base.split selected registry tracker).flatMap sources = registry.askedIds selected := by
  rw [split_eq, List.flatMap_append, List.flatMap_map, Registry.askedIds,
    ← registry.flatMap_groupSources]
  split <;> rfl

/-- The only request of a round for a group of sources. -/
theorem filter_group_split (hselected : selected.Nodup) {group : Group}
    (h : group ∈ registry.sourceGroups selected) :
    (base.split selected registry tracker).filter (fun request => request.group == group) =
      [base.forGroup tracker group (registry.groupSources selected group)] := by
  have hgroups : (registry.sourceGroups selected).filter (fun other => other == group) =
      [group] := by
    have hcount := List.count_eq_one_of_mem (Registry.nodup_sourceGroups hselected) h
    rw [List.filter_beq, hcount]
    rfl
  have hcache : (Group.cache == group) = false :=
    beq_eq_false_iff_ne.2 (Registry.ne_cache_of_mem_sourceGroups h).symm
  have hgroup : ((fun request : Request => request.group == group) ∘ fun group =>
      base.forGroup tracker group (registry.groupSources selected group)) =
        fun other => other == group := rfl
  rw [split_eq, List.filter_append, List.filter_map, hgroup, hgroups]
  split
  · rw [List.filter_cons_of_neg (by simpa [forGroup] using hcache)]
    rfl
  · rfl

/-- Entries without repetition have none to erase. -/
theorem eraseDups_of_nodup {ids : List String} (h : ids.Nodup) : ids.eraseDups = ids := by
  induction ids with
  | nil => rfl
  | cons id ids ih =>
    obtain ⟨hid, hids⟩ := List.nodup_cons.1 h
    have hfilter : ids.filter (fun other => !other == id) = ids := by
      refine List.filter_eq_self.2 fun other hother => ?_
      rw [Bool.not_eq_true', beq_eq_false_iff_ne]
      rintro rfl
      exact hid hother
    rw [List.eraseDups_cons, hfilter, ih hids]

theorem askedSources_split (h : selected.Nodup) :
    Session.askedSources (base.split selected registry tracker) = registry.askedIds selected := by
  rw [Session.askedSources, flatMap_sources_split, eraseDups_of_nodup (Registry.nodup_askedIds h)]

end Request

namespace Registry

variable {registry : Registry} {selected : List String}

/-- Of the sources of a round, the local ones share one offset and the others none. -/
theorem filter_askedIds (key : String) :
    (registry.askedIds selected).filter
        (fun id => id != Source.cacheId && registry.offsetKey id == key) =
      (selected.filter registry.isLocal).filter (fun _ => localKey == key) ++
        (selected.filter registry.isFederated).filter (fun id => id == key) := by
  have hcache : (if registry.cacheEnabled &&
        !(selected.filter fun id => id != Source.cacheId).isEmpty then [Source.cacheId]
      else []).filter (fun id => id != Source.cacheId && registry.offsetKey id == key) = [] := by
    split <;> rfl
  have hlocal : ∀ id ∈ selected.filter registry.isLocal,
      (id != Source.cacheId && registry.offsetKey id == key) = (localKey == key) := by
    intro id hid
    have hlocal := (List.mem_filter.1 hid).2
    rw [bne_iff_ne.2 (ne_cacheId_of_isLocal hlocal), offsetKey, if_pos hlocal, Bool.true_and]
  have hfederated : ∀ id ∈ selected.filter registry.isFederated,
      (id != Source.cacheId && registry.offsetKey id == key) = (id == key) := by
    intro id hid
    have hfederated := (List.mem_filter.1 hid).2
    rw [bne_iff_ne.2 (ne_cacheId_of_isFederated hfederated), offsetKey,
      isLocal_of_isFederated hfederated, if_neg Bool.false_ne_true, Bool.true_and]
  rw [askedIds, List.filter_append, List.filter_append, hcache, List.append_nil,
    List.filter_congr hlocal, List.filter_congr hfederated]

/-- Of the sources of a round, all but the cache are in some group. -/
theorem filter_askedIds_real :
    (registry.askedIds selected).filter (fun id => id != Source.cacheId) =
      (registry.sourceGroups selected).flatMap (registry.groupSources selected) := by
  have hcache : (if registry.cacheEnabled &&
        !(selected.filter fun id => id != Source.cacheId).isEmpty then [Source.cacheId]
      else []).filter (fun id => id != Source.cacheId) = [] := by
    split <;> rfl
  rw [flatMap_groupSources, askedIds, List.filter_append, hcache, List.append_nil,
    List.filter_eq_self]
  intro id hid
  obtain hlocal | hfederated := List.mem_append.1 hid
  · exact bne_iff_ne.2 (ne_cacheId_of_isLocal (List.mem_filter.1 hlocal).2)
  · exact bne_iff_ne.2 (ne_cacheId_of_isFederated (List.mem_filter.1 hfederated).2)

theorem mem_askedIds_of_isFederated {id : String}
    (h : id ∈ selected.filter registry.isFederated) : id ∈ registry.askedIds selected :=
  List.mem_append_left _ (List.mem_append_right _ h)

/-- A federated source that a round asks is one of the selection. -/
theorem mem_of_mem_askedIds {id : String} (hid : id ∈ registry.askedIds selected)
    (h : registry.isFederated id = true) : id ∈ selected.filter registry.isFederated := by
  rw [askedIds, List.mem_append, List.mem_append] at hid
  obtain (hlocal | hid) | hcache := hid
  · have hlocal := (List.mem_filter.1 hlocal).2
    rw [isLocal_of_isFederated h] at hlocal
    cases hlocal
  · exact hid
  · rw [List.mem_ite_nil_right, List.mem_singleton] at hcache
    exact absurd hcache.2 (ne_cacheId_of_isFederated h)

theorem filter_askedIds_localKey
    (hname : ∀ id ∈ selected, registry.isFederated id = true → id ≠ localKey) :
    (registry.askedIds selected).filter
        (fun id => id != Source.cacheId && registry.offsetKey id == localKey) =
      selected.filter registry.isLocal := by
  have hnone : (selected.filter registry.isFederated).filter (fun id => id == localKey) = [] := by
    rw [List.filter_eq_nil_iff]
    intro id hid
    obtain ⟨hid, hfederated⟩ := List.mem_filter.1 hid
    rw [beq_iff_eq]
    exact hname id hid hfederated
  rw [filter_askedIds, hnone, List.append_nil]
  exact List.filter_eq_self.2 fun _ _ => rfl

/-- Of the sources of a round, those of a group share the offset of the group. -/
theorem filter_askedIds_key
    (hname : ∀ id ∈ selected, registry.isFederated id = true → id ≠ localKey)
    (hselected : selected.Nodup) {group : Group} (h : group ∈ registry.sourceGroups selected) :
    (registry.askedIds selected).filter
        (fun id => id != Source.cacheId && registry.offsetKey id == group.key) =
      registry.groupSources selected group := by
  obtain ⟨rfl, -⟩ | ⟨id, hid, rfl⟩ := mem_sourceGroups.1 h
  · exact filter_askedIds_localKey hname
  · obtain ⟨hmem, hfederated⟩ := List.mem_filter.1 hid
    have hnone : (selected.filter registry.isLocal).filter (fun _ => localKey == id) = [] := by
      rw [beq_eq_false_iff_ne.2 (hname id hmem hfederated).symm]
      exact List.filter_eq_nil_iff.2 fun _ _ => Bool.false_ne_true
    rw [filter_askedIds, Group.key, hnone, List.filter_beq,
      List.count_eq_one_of_mem (hselected.filter _) hid]
    rfl

end Registry

end CatalogSearch
