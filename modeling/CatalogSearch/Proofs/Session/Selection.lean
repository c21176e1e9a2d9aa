import CatalogSearch.Proofs.Paging.Groups
import CatalogSearch.Proofs.Session.Board
import CatalogSearch.Proofs.Session.Restarting

/-!
# How often a source is asked

A round without a hook asks a source as often as it is selected.  Registries know each
source once, so the local catalog and the sources of the enterprise are asked once; a list of
sources that was set may repeat itself, and the round then does as well.
-/

namespace CatalogSearch

namespace Registry

/-- The registries that can be set up. -/
inductive Made : Registry → Prop
  | create (localCatalog : String) (cacheEnabled : Bool) : Made (create localCatalog cacheEnabled)
  | register {registry : Registry} (h : Made registry) (source : Source) :
    Made (registry.register source)
  | setAvailable {registry : Registry} (h : Made registry) (id : String) (available : Bool) :
    Made (registry.setAvailable id available)

theorem nodup_ids_register {registry : Registry} (h : registry.ids.Nodup) (source : Source) :
    (registry.register source).ids.Nodup := by
  rw [register]
  split
  · exact h
  · rw [ids, Roster.map_name_enter_entry Source.id source registry.sources]
    split
    · exact h
    · rename_i hnew
      exact List.nodup_append.2 ⟨h, List.nodup_singleton _, fun id hid other hother =>
        fun heq => hnew (List.mem_singleton.1 hother ▸ heq ▸ hid)⟩

theorem ids_setAvailable (registry : Registry) (id : String) (available : Bool) :
    (registry.setAvailable id available).ids = registry.ids :=
  Roster.map_adjust Source.id id (fun source => { source with available }) (fun _ => rfl)
    registry.sources

/-- A registry knows no source twice. -/
theorem Made.nodup_ids {registry : Registry} (h : registry.Made) : registry.ids.Nodup := by
  induction h with
  | create => exact List.nodup_singleton _
  | register _ source ih => exact nodup_ids_register ih source
  | setAvailable _ id available ih => rwa [ids_setAvailable]

end Registry

/-- The registry of a configuration is one that can be set up. -/
theorem Config.made_registry {config : Config} {registry : Registry}
    (h : config.registry = .ok registry) : registry.Made := by
  have hfirst := Registry.Made.create config.search.localCatalog config.search.cacheEnabled
  rw [Config.registry] at h
  generalize Registry.create config.search.localCatalog config.search.cacheEnabled = first
    at h hfirst
  generalize config.sources = sources at h
  induction sources generalizing first with
  | nil =>
    cases h
    exact hfirst
  | cons source rest ih =>
    rw [List.foldlM_cons] at h
    cases hkind : Source.Kind.ofName? source.classification with
    | none =>
      rw [hkind] at h
      cases h
    | some kind =>
      rw [hkind] at h
      exact ih _ (hfirst.register _) h

namespace Request

variable {base : Request} {registry : Registry} {selected : List String} {tracker : PageTracker}

/-- The requests of a round that are not for the cache. -/
def direct (requests : List Request) : List Request :=
  requests.filter fun request => request.group != .cache

theorem direct_split :
    direct (base.split selected registry tracker) =
      (registry.sourceGroups selected).map fun group =>
        base.forGroup tracker group (registry.groupSources selected group) := by
  have hgroups : ∀ request ∈ (registry.sourceGroups selected).map (fun group =>
      base.forGroup tracker group (registry.groupSources selected group)),
      (request.group != .cache) = true := by
    intro request hrequest
    obtain ⟨group, hgroup, rfl⟩ := List.mem_map.1 hrequest
    exact bne_iff_ne.2 (Registry.ne_cache_of_mem_sourceGroups hgroup)
  rw [direct, split_eq, List.filter_append, List.filter_eq_self.2 hgroups]
  split
  · exact List.append_nil _
  · exact List.append_nil _

theorem flatMap_sources_direct_split :
    (direct (base.split selected registry tracker)).flatMap sources =
      selected.filter registry.isLocal ++ selected.filter registry.isFederated := by
  rw [direct_split, List.flatMap_map]
  exact registry.flatMap_groupSources selected

/-- All but the cache are asked as often as they are selected. -/
theorem perm_direct_split :
    ((direct (base.split selected registry tracker)).flatMap sources).Perm
      (selected.filter fun id => id != Source.cacheId) := by
  have hlocal : selected.filter registry.isLocal =
      (selected.filter fun id => id != Source.cacheId).filter registry.isLocal := by
    rw [List.filter_filter]
    refine List.filter_congr fun id _ => ?_
    cases hlocal : registry.isLocal id with
    | true => rw [bne_iff_ne.2 (Registry.ne_cacheId_of_isLocal hlocal), Bool.and_self]
    | false => rfl
  have hfederated : selected.filter registry.isFederated =
      (selected.filter fun id => id != Source.cacheId).filter
        (fun id => !registry.isLocal id) := by
    rw [List.filter_filter]
    refine List.filter_congr fun id _ => ?_
    by_cases hcache : id = Source.cacheId
    · rw [hcache]
      rfl
    · rw [registry.isFederated_eq_not_isLocal hcache, bne_iff_ne.2 hcache, Bool.and_true]
  rw [flatMap_sources_direct_split, hlocal, hfederated]
  exact List.filter_append_perm _ _

/-- What the requests of a round ask, and from where on. -/
structure Cover (requests : List Request) (registry : Registry) (selected : List String)
    (tracker : PageTracker) : Prop where
  /-- All but the cache are asked as often as they are selected, and no others are. -/
  sources : ((direct requests).flatMap sources).Perm
    (selected.filter fun id => id != Source.cacheId)
  /-- Local sites are asked in one request, at the offset that they share. -/
  localSites : (requests.filter fun request => request.group == .localSites).map place =
    if (selected.filter registry.isLocal).isEmpty then []
    else [⟨.localSites, selected.filter registry.isLocal, tracker.startOf localKey⟩]
  /-- A federated site is asked on its own, at its own offset. -/
  site : ∀ request ∈ requests, ∀ id, request.group = .site id →
    registry.isFederated id = true ∧ request.sources = [id] ∧
      request.start = tracker.startOf id
  /-- The cache is asked on its own and once, if it is enabled. -/
  cache : (requests.filter fun request => request.group == .cache).map Request.sources =
    if registry.cacheEnabled then [[Source.cacheId]] else []

/-- Requests for federated sites are for no other group. -/
theorem filter_group_sites (base : Request) (tracker : PageTracker) (ids : List String)
    (group : Group) (h : ∀ id, group ≠ .site id) :
    (ids.map fun id => base.forGroup tracker (.site id) [id]).filter
      (fun request => request.group == group) = [] := by
  rw [List.filter_eq_nil_iff]
  intro request hrequest
  obtain ⟨id, -, rfl⟩ := List.mem_map.1 hrequest
  rw [beq_iff_eq]
  exact (h id).symm

/-- A round that asks anything asks a source that is not the cache. -/
theorem real_of_split_ne_nil (h : base.split selected registry tracker ≠ []) :
    selected.filter (fun id => id != Source.cacheId) ≠ [] := by
  have hreal {id : String} (hid : id ∈ selected) (hcache : id ≠ Source.cacheId) :
      selected.filter (fun id => id != Source.cacheId) ≠ [] :=
    List.ne_nil_of_mem (List.mem_filter.2 ⟨hid, bne_iff_ne.2 hcache⟩)
  obtain ⟨request, hrequest⟩ := List.exists_mem_of_ne_nil _ h
  obtain ⟨-, hlocal⟩ | ⟨id, hid, -⟩ | ⟨-, -, hcache⟩ := mem_split.1 hrequest
  · obtain ⟨id, hid⟩ := List.exists_mem_of_ne_nil _ hlocal
    obtain ⟨hid, hlocal⟩ := List.mem_filter.1 hid
    exact hreal hid (Registry.ne_cacheId_of_isLocal hlocal)
  · obtain ⟨hid, hfederated⟩ := List.mem_filter.1 hid
    exact hreal hid (Registry.ne_cacheId_of_isFederated hfederated)
  · exact hcache

theorem cover_split (h : base.split selected registry tracker ≠ []) :
    Cover (base.split selected registry tracker) registry selected tracker where
  sources := perm_direct_split
  localSites := by
    have hsites := filter_group_sites base tracker (selected.filter registry.isFederated)
      .localSites fun id heq => by cases heq
    rw [split, List.filter_append, List.filter_append, hsites, List.append_nil]
    split <;> split <;> rfl
  site := by
    intro request hrequest id hgroup
    obtain ⟨rfl, -⟩ | ⟨other, hother, rfl⟩ | ⟨rfl, -⟩ := mem_split.1 hrequest
    · cases hgroup
    · cases hgroup
      exact ⟨(List.mem_filter.1 hother).2, rfl, rfl⟩
    · cases hgroup
  cache := by
    have hsites := filter_group_sites base tracker (selected.filter registry.isFederated)
      .cache fun id heq => by cases heq
    have hreal := List.isEmpty_eq_false_iff.2 (real_of_split_ne_nil h)
    rw [split, List.filter_append, List.filter_append, hsites, hreal, List.append_nil,
      Bool.not_false, Bool.and_true]
    split <;> split <;> rfl

end Request

/-! ## Rounds of a session -/

namespace Session

/-- No source is selected twice, unless a list of sources that was set names it twice. -/
theorem nodup_selectedSources {session : Session} (hmade : session.registry.Made)
    (hlist : session.query.federation = .selected → session.query.sources.Nodup) :
    session.selectedSources.Nodup := by
  rw [selectedSources, Query.selectedSources]
  cases hfederation : session.query.federation with
  | localCatalog => exact List.nodup_singleton _
  | enterprise => exact hmade.nodup_ids
  | selected => exact hlist hfederation

theorem cover_start {session : Session} {options : SearchOptions}
    (hhook : session.surroundings.hook = none) (hsent : (sending (session.start options)).2 ≠ []) :
    let after := (sending (session.start options)).1
    Request.Cover (sending (session.start options)).2 after.registry after.selectedSources
      after.tracker := by
  intro after
  obtain ⟨request, hrequest⟩ := List.exists_mem_of_ne_nil _ hsent
  have hstarts := starts_of_mem_sent hrequest
  have hprepared : Prepared session after := prepared_start_of_starts hstarts
  have hregistry : after.registry = session.registry := by
    rw [registry, hprepared.surroundings]
    rfl
  have hselected : after.selectedSources = session.selectedSources := by
    rw [selectedSources, hregistry, hprepared.query]
    rfl
  rw [sent_start_of_starts hstarts, roundRequests_of_unhooked hhook] at hsent ⊢
  rw [hregistry, hselected, hprepared.tracker]
  exact Request.cover_split hsent

end Session

namespace Operation

/-- Without a hook, every round asks what is selected: each source as often as it is
selected, so once where no list of sources repeats itself. -/
theorem round_covers_selection {session : Session} {operation : Operation}
    (hhook : session.surroundings.hook = none) (hsent : (operation.run session).2 ≠ []) :
    let after := (operation.run session).1
    let requests := (operation.run session).2
    Request.Cover requests after.registry after.selectedSources after.tracker ∧
      (after.registry.Made →
        (after.query.federation = .selected → after.query.sources.Nodup) →
          ∀ id ∈ after.selectedSources, id ≠ Source.cacheId →
            ((Request.direct requests).flatMap Request.sources).count id = 1) := by
  intro after requests
  have hcover : Request.Cover requests after.registry after.selectedSources after.tracker := by
    cases hsearch : operation.search? session with
    | none => exact absurd (sent_of_search?_eq_none hsearch) hsent
    | some search =>
      have hrun : (after, requests) = Session.sending (search.1.start search.2) :=
        run_of_search? hsearch
      rw [run_of_search? hsearch] at hsent
      have hbefore : search.1.surroundings.hook = none := by
        rw [(frame_of_search? hsearch).1, hhook]
      have hcover := Session.cover_start hbefore hsent
      rwa [← hrun] at hcover
  refine ⟨hcover, fun hmade hlist id hid hcache => ?_⟩
  have hselected := Session.nodup_selectedSources hmade hlist
  rw [hcover.sources.count_eq]
  exact List.count_eq_one_of_mem (hselected.filter _)
    (List.mem_filter.2 ⟨hid, bne_iff_ne.2 hcache⟩)

/-- A session whose query goes to some sources, by a list of them. -/
def listedSession (sources : List String) : Session :=
  ((Session.create (.create "query" "Search")
    ⟨(Registry.create "home" true).register ⟨"site", .federatedSite, true⟩, 2, 1000,
      none⟩).setFederation .selected).setSources sources

theorem listed_site_is_asked_once :
    let session := listedSession ["site", "home", "other"]
    let requests := ((Operation.start {}).run session).2
    requests.map Request.sources = [["home"], ["site"], ["other"], [Source.cacheId]] ∧
      ((Request.direct requests).flatMap Request.sources).count "site" = 1 := by
  intro session requests
  have hsent : requests ≠ [] := by decide +kernel
  have hround := @round_covers_selection session (.start {}) rfl hsent
  have hmade : ((Operation.start {}).run session).1.registry.Made :=
    (Registry.Made.create "home" true).register ⟨"site", .federatedSite, true⟩
  exact ⟨by decide +kernel,
    hround.2 hmade (by decide +kernel) "site" (by decide +kernel) (by decide)⟩

/-- A list that names a site twice has the site asked twice in one round. -/
theorem repeated_site_is_asked_twice :
    let session := listedSession ["site", "site"]
    let requests := ((Operation.start {}).run session).2
    session.surroundings.hook.isNone = true ∧ "site" ∈ session.selectedSources ∧
      (Request.direct requests).map Request.sources = [["site"], ["site"]] ∧
      ((Request.direct requests).flatMap Request.sources).count "site" ≠ 1 := by
  decide +kernel

end Operation

end CatalogSearch
