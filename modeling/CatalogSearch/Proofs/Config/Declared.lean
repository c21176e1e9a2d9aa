import CatalogSearch.Config.Validation
import CatalogSearch.Proofs.Rosters
import CatalogSearch.Query.Basic
import Mathlib.Data.Set.List

/-!
# Configurations as they are declared

What the validation asks of a configuration is all that its readers need: every word that it
lets pass is known to them, so sources and queries are made as they are declared.  The local
catalog is registered first and takes its declaration when that comes, so it stays in front.
-/

namespace CatalogSearch

namespace Config

/-! ## Valid configurations -/

theorem demand_eq_ok_iff {condition : Bool} {defect : Defect} :
    demand condition defect = .ok () ↔ condition = true := by
  cases condition <;> simp [demand]

/-- Of two checks, one after the other, both must succeed. -/
theorem both_eq_ok_iff {first second : Except Defect Unit} :
    (do first; second) = .ok () ↔ first = .ok () ∧ second = .ok () := by
  cases first with
  | error defect => exact iff_of_false nofun fun h => nomatch h.1
  | ok done => exact (and_iff_right rfl).symm

theorem forM_eq_ok_iff {α : Type} {check : α → Except Defect Unit} {entries : List α} :
    entries.forM check = .ok () ↔ ∀ entry ∈ entries, check entry = .ok () := by
  induction entries with
  | nil => exact iff_of_true rfl nofun
  | cons entry entries ih =>
    change (do check entry; entries.forM check) = .ok () ↔ _
    rw [both_eq_ok_iff, ih, List.forall_mem_cons]

/-- A sort key that can be declared. -/
structure DeclaredSort.Sound (sort : DeclaredSort) : Prop where
  name : Text.isBlankString sort.name = false
  direction : sort.direction ∈ ["ascending", "descending"]

/-- A source that can be declared, apart from the others. -/
structure DeclaredSource.Sound (source : DeclaredSource) : Prop where
  id : Text.isBlankString source.id = false
  notCache : source.id ≠ Source.cacheId
  classification : (Source.Kind.ofName? source.classification).isSome = true

/-- What makes a configuration valid. -/
structure Valid (config : Config) : Prop where
  logLevel : Text.isBlankString config.service.logLevel = false
  apiBase : Text.isBlankString config.catalog.apiBase = false
  queryPath : config.catalog.queryPath.toList.head? = some '/'
  timeout : config.catalog.timeout ≠ 0
  headers : ∀ entry ∈ config.catalog.defaultHeaders, entry.2.asString?.isSome = true
  resultCount : config.search.resultCount ≠ 0
  federation : config.search.federation ∈ ["local", "enterprise", "selected"]
  sorts : ∀ sort ∈ config.search.sorts, sort.Sound
  sources : ∀ source ∈ config.sources, source.Sound
  distinct : (config.sources.map DeclaredSource.id).Nodup
  localCatalog : ∃ source ∈ config.sources,
    source.id = config.search.localCatalog ∧ source.classification = "local"

theorem DeclaredSort.check_eq_ok_iff {sort : DeclaredSort} : sort.check = .ok () ↔ sort.Sound := by
  rw [check, both_eq_ok_iff, demand_eq_ok_iff, demand_eq_ok_iff, Bool.not_eq_true',
    List.contains_iff_mem]
  exact ⟨fun h => ⟨h.1, h.2⟩, fun h => ⟨h.name, h.direction⟩⟩

theorem DeclaredSource.check_eq_ok_iff {earlier : List String} {source : DeclaredSource} :
    source.check earlier = .ok () ↔ source.Sound ∧ source.id ∉ earlier := by
  simp only [check, both_eq_ok_iff, demand_eq_ok_iff, Bool.not_eq_true', bne_iff_ne,
    List.contains_eq_mem, decide_eq_false_iff_not]
  exact ⟨fun h => ⟨⟨h.1, h.2.1, h.2.2.1⟩, h.2.2.2⟩,
    fun h => ⟨h.1.id, h.1.notCache, h.1.classification, h.2⟩⟩

/-- Sources are accepted behind earlier ones if each can be declared and no id occurs again. -/
theorem checkSources_eq_ok_iff {earlier : List String} {sources : List DeclaredSource} :
    checkSources earlier sources = .ok () ↔
      (∀ source ∈ sources, source.Sound) ∧ (sources.map DeclaredSource.id).Nodup ∧
        ∀ source ∈ sources, source.id ∉ earlier := by
  induction sources generalizing earlier with
  | nil => simp [checkSources]
  | cons source sources ih =>
    rw [checkSources, both_eq_ok_iff, DeclaredSource.check_eq_ok_iff, ih, List.map_cons,
      List.nodup_cons, List.forall_mem_cons, List.forall_mem_cons]
    have hnew : (∀ other ∈ sources, other.id ∉ source.id :: earlier) ↔
        source.id ∉ sources.map DeclaredSource.id ∧ ∀ other ∈ sources, other.id ∉ earlier := by
      simp only [List.mem_cons, not_or, List.mem_map, not_exists, not_and, forall_and]
    rw [hnew]
    tauto

theorem checkLocalCatalog_eq_ok_iff {id : String} {sources : List DeclaredSource}
    (hdistinct : (sources.map DeclaredSource.id).Nodup) :
    checkLocalCatalog id sources = .ok () ↔
      ∃ source ∈ sources, source.id = id ∧ source.classification = "local" := by
  cases hfind : sources.find? fun source => source.id == id with
  | none =>
    have hnone := List.find?_eq_none.1 hfind
    rw [checkLocalCatalog, hfind]
    exact iff_of_false nofun fun ⟨source, hsource, hid, _⟩ =>
      hnone source hsource (beq_iff_eq.2 hid)
  | some found =>
    have hmem := List.mem_of_find?_eq_some hfind
    have hfound := List.find?_some hfind
    have hid := beq_iff_eq.1 hfound
    rw [checkLocalCatalog, hfind]
    dsimp only
    rw [demand_eq_ok_iff, beq_iff_eq]
    constructor
    · exact fun hlocal => ⟨found, hmem, hid, hlocal⟩
    · rintro ⟨source, hsource, hsame, hlocal⟩
      rwa [List.inj_on_of_nodup_map hdistinct hmem hsource (hid.trans hsame.symm)]

/-- The validation succeeds on valid configurations, and on no others. -/
theorem validate_eq_ok_iff {config : Config} : config.validate = .ok () ↔ config.Valid := by
  simp only [validate, Service.check, Endpoint.check, Search.check, both_eq_ok_iff,
    demand_eq_ok_iff, forM_eq_ok_iff, DeclaredSort.check_eq_ok_iff, checkSources_eq_ok_iff,
    Bool.not_eq_true', beq_iff_eq, bne_iff_ne, List.contains_iff_mem]
  constructor
  · rintro ⟨hlevel, ⟨hbase, hpath, htimeout, hheaders⟩, ⟨hcount, hfederation, hsorts⟩,
      ⟨hsources, hdistinct, -⟩, hlocal⟩
    exact ⟨hlevel, hbase, hpath, htimeout, hheaders, hcount, hfederation, hsorts, hsources,
      hdistinct, (checkLocalCatalog_eq_ok_iff hdistinct).1 hlocal⟩
  · intro h
    exact ⟨h.logLevel, ⟨h.apiBase, h.queryPath, h.timeout, h.headers⟩,
      ⟨h.resultCount, h.federation, h.sorts⟩, ⟨h.sources, h.distinct, nofun⟩,
      (checkLocalCatalog_eq_ok_iff h.distinct).2 h.localCatalog⟩

end Config

/-! ## Sources -/

/-- The source as a configuration declares it. -/
def Source.declared (source : Source) : Config.DeclaredSource :=
  ⟨source.id, source.kind.name, source.available⟩

theorem Source.Kind.ofName?_name (kind : Kind) : ofName? kind.name = some kind := by
  cases kind <;> rfl

theorem Source.Kind.name_of_ofName? {word : String} {kind : Kind} (h : ofName? word = some kind) :
    kind.name = word := by
  unfold ofName? at h
  split at h
  · cases h; rfl
  · cases h; rfl
  · cases h

theorem Config.DeclaredSource.Sound.exists_declared {source : DeclaredSource} (h : source.Sound) :
    ∃ read : Source, read.declared = source := by
  obtain ⟨kind, hkind⟩ := Option.isSome_iff_exists.1 h.classification
  refine ⟨⟨source.id, kind, source.available⟩, ?_⟩
  rw [Source.declared, Source.Kind.name_of_ofName? hkind]

namespace Registry

variable {registry : Registry} {sources : List Source}

/-- Sources of new ids are registered behind all others. -/
theorem foldl_register_eq (hcache : ∀ source ∈ sources, source.id ≠ Source.cacheId)
    (hnodup : ((registry.sources ++ sources).map Source.id).Nodup) :
    sources.foldl register registry = { registry with sources := registry.sources ++ sources } := by
  have hfold : sources.foldl register registry =
      { registry with sources :=
          sources.foldl (fun all source => Roster.enter Source.id source.id source
            (fun _ => source) all) registry.sources } := by
    clear hnodup
    induction sources generalizing registry with
    | nil => rfl
    | cons source sources ih =>
      obtain ⟨hfirst, hmore⟩ := List.forall_mem_cons.1 hcache
      rw [List.foldl_cons, ih hmore, register, if_neg hfirst]
      rfl
  rw [hfold, Roster.foldl_enter_eq_append Source.id hnodup]

variable {home : Source}

/-- The source of an id is the only one of that id. -/
theorem filter_id_ne (hhome : home ∈ sources) (hnodup : (sources.map Source.id).Nodup) :
    ∃ before after, sources = before ++ home :: after ∧
      sources.filter (fun source => source.id != home.id) = before ++ after := by
  obtain ⟨before, after, rfl⟩ := List.append_of_mem hhome
  have hmoved : ((home :: (before ++ after)).map Source.id).Nodup :=
    (List.perm_middle.map Source.id).nodup_iff.1 hnodup
  have hothers : ∀ source ∈ before ++ after, (source.id != home.id) = true := by
    intro source hsource
    refine bne_iff_ne.2 fun hsame => (List.nodup_cons.1 hmoved).1 ?_
    exact hsame ▸ List.mem_map_of_mem hsource
  have hkept := List.filter_eq_self.2 hothers
  refine ⟨before, after, rfl, ?_⟩
  rw [List.filter_append] at hkept ⊢
  rw [List.filter_cons_of_neg (by simp), hkept]

theorem perm_cons_filter (hhome : home ∈ sources) (hnodup : (sources.map Source.id).Nodup) :
    sources.Perm (home :: sources.filter fun source => source.id != home.id) := by
  obtain ⟨before, after, rfl, hfilter⟩ := filter_id_ne hhome hnodup
  rw [hfilter]
  exact List.perm_middle

/-- The local catalog takes the place of its stand-in, in front of all other sources. -/
theorem foldl_register_create (hhome : home ∈ sources)
    (hcache : ∀ source ∈ sources, source.id ≠ Source.cacheId)
    (hnodup : (sources.map Source.id).Nodup) (cacheEnabled : Bool) :
    sources.foldl register (create home.id cacheEnabled) =
      ⟨home :: sources.filter (fun source => source.id != home.id), home.id, cacheEnabled⟩ := by
  obtain ⟨before, after, rfl, hfilter⟩ := filter_id_ne hhome hnodup
  obtain ⟨hbefore, hrest⟩ := List.forall_mem_append.1 hcache
  obtain ⟨hnew, hafter⟩ := List.forall_mem_cons.1 hrest
  have hmoved : ((home :: before ++ after).map Source.id).Nodup :=
    (List.perm_middle.map Source.id).nodup_iff.1 hnodup
  have hstart : (((create home.id cacheEnabled).sources ++ before).map Source.id).Nodup := by
    rw [List.map_append] at hmoved
    exact hmoved.of_append_left
  rw [hfilter, List.foldl_append, List.foldl_cons, foldl_register_eq hbefore hstart, register,
    if_neg hnew, create, List.singleton_append, Roster.enter, if_pos rfl,
    foldl_register_eq hafter hmoved]
  rfl

/-- Registered sources are as local as they were declared. -/
theorem isLocal_of_mem (registry : Registry) (hids : registry.ids.Nodup)
    (hcache : Source.cacheId ∉ registry.ids) :
    ∀ source ∈ registry.sources,
      registry.isLocal source.id = (source.declared.classification == "local") := by
  intro source hsource
  have hid : source.id ≠ Source.cacheId := fun hid => hcache (hid ▸ List.mem_map_of_mem hsource)
  have hkind : registry.kindOf source.id = source.kind := by
    rw [kindOf, Roster.find?_of_mem Source.id hids hsource]
  rw [isLocal, hkind, bne_iff_ne.2 hid, Source.declared]
  cases source.kind <;> rfl

/-- The registry knows each declared source once, as it is declared, and no others.  The local
catalog comes first, the others follow in the order of their declaration. -/
structure AsDeclared (registry : Registry) (config : Config) : Prop where
  sources : ∃ home ∈ config.sources, home.id = config.search.localCatalog ∧
    registry.sources.map Source.declared =
      home :: config.sources.filter fun source => source.id != config.search.localCatalog
  ids : registry.ids = config.search.localCatalog ::
    (config.sources.map Config.DeclaredSource.id).filter (· != config.search.localCatalog)
  distinct : registry.ids.Nodup
  notCache : Source.cacheId ∉ registry.ids
  kinds : ∀ source ∈ config.sources,
    registry.isLocal source.id = (source.classification == "local")
  isLocal : registry.isLocal config.search.localCatalog = true
  localCatalog : registry.localCatalog = config.search.localCatalog
  cacheEnabled : registry.cacheEnabled = config.search.cacheEnabled

theorem asDeclared_of_home {config : Config}
    (hsources : sources.map Source.declared = config.sources) (hhome : home ∈ sources)
    (hid : home.id = config.search.localCatalog)
    (hlocal : home.declared.classification = "local")
    (hcache : ∀ source ∈ sources, source.id ≠ Source.cacheId)
    (hnodup : (sources.map Source.id).Nodup) :
    AsDeclared ⟨home :: sources.filter (fun source => source.id != home.id), home.id,
      config.search.cacheEnabled⟩ config := by
  have hperm := perm_cons_filter hhome hnodup
  have hids := (hperm.map Source.id).nodup_iff.1 hnodup
  have hnotCache : Source.cacheId ∉
      (home :: sources.filter fun source => source.id != home.id).map Source.id := by
    intro hcached
    obtain ⟨source, hsource, hsame⟩ := List.mem_map.1 hcached
    exact hcache source (hperm.mem_iff.2 hsource) hsame
  have hkinds := isLocal_of_mem ⟨home :: sources.filter (fun source => source.id != home.id),
    home.id, config.search.cacheEnabled⟩ hids hnotCache
  constructor
  case sources =>
    refine ⟨home.declared, hsources ▸ List.mem_map_of_mem hhome, hid, ?_⟩
    rw [← hsources, List.filter_map, ← hid]
    rfl
  case ids =>
    rw [← hsources, List.map_map, List.filter_map, ← hid]
    rfl
  case distinct => exact hids
  case notCache => exact hnotCache
  case kinds =>
    intro source hsource
    obtain ⟨read, hread, rfl⟩ := List.mem_map.1 (hsources ▸ hsource)
    exact hkinds read (hperm.mem_iff.1 hread)
  case isLocal =>
    rw [← hid, hkinds home List.mem_cons_self, hlocal]
    rfl
  case localCatalog => exact hid
  case cacheEnabled => rfl

end Registry

namespace Config

variable {config : Config}

theorem Valid.exists_declared (h : config.Valid) :
    ∃ sources : List Source, sources.map Source.declared = config.sources := by
  have hrange : config.sources ∈ Set.range (List.map Source.declared) := by
    rw [Set.range_list_map]
    exact fun source hsource => (h.sources source hsource).exists_declared
  exact hrange

/-- Declared sources are registered one after the other. -/
theorem registry_of_declared {sources : List Source}
    (h : sources.map Source.declared = config.sources) :
    config.registry = .ok (sources.foldl Registry.register
      (.create config.search.localCatalog config.search.cacheEnabled)) := by
  rw [registry, ← h]
  generalize Registry.create config.search.localCatalog config.search.cacheEnabled = first
  clear h
  induction sources generalizing first with
  | nil => rfl
  | cons source sources ih =>
    rw [List.map_cons, List.foldlM_cons, Source.declared, Source.Kind.ofName?_name]
    exact ih _

/-- A valid configuration has a registry of the sources that it declares. -/
theorem Valid.exists_registry (h : config.Valid) :
    ∃ registry, config.registry = .ok registry ∧ registry.AsDeclared config := by
  obtain ⟨sources, hsources⟩ := h.exists_declared
  obtain ⟨declared, hdeclared, hid, hlocal⟩ := h.localCatalog
  obtain ⟨home, hhome, rfl⟩ := List.mem_map.1 (hsources ▸ hdeclared)
  have hcache : ∀ source ∈ sources, source.id ≠ Source.cacheId := fun source hsource =>
    (h.sources source.declared (hsources ▸ List.mem_map_of_mem hsource)).notCache
  have hnodup : (sources.map Source.id).Nodup := by
    have hdistinct := h.distinct
    rwa [← hsources, List.map_map] at hdistinct
  have hmade := registry_of_declared hsources
  rw [← hid] at hmade
  have hregistry := Registry.foldl_register_create hhome hcache hnodup config.search.cacheEnabled
  exact ⟨_, hmade.trans (congrArg _ hregistry),
    Registry.asDeclared_of_home hsources hhome hid hlocal hcache hnodup⟩

end Config

/-! ## Queries -/

/-- The sort key as a configuration declares it. -/
def SortKey.declared (key : SortKey) : Config.DeclaredSort := ⟨key.name, key.direction.name⟩

namespace Config

theorem exists_federation {word : String} (h : word ∈ ["local", "enterprise", "selected"]) :
    ∃ federation, Federation.ofWord? word = some federation ∧ federation.name = word := by
  simp only [List.mem_cons, List.not_mem_nil, or_false] at h
  obtain rfl | rfl | rfl := h
  · exact ⟨.localCatalog, by decide +kernel, rfl⟩
  · exact ⟨.enterprise, by decide +kernel, rfl⟩
  · exact ⟨.selected, by decide +kernel, rfl⟩

theorem exists_direction {word : String} (h : word ∈ ["ascending", "descending"]) :
    ∃ direction, Direction.ofName? (Text.lowercase word) = some direction ∧
      direction.name = word := by
  simp only [List.mem_cons, List.not_mem_nil, or_false] at h
  obtain rfl | rfl := h
  · exact ⟨.ascending, by decide +kernel, rfl⟩
  · exact ⟨.descending, by decide +kernel, rfl⟩

theorem DeclaredSort.Sound.exists_key {sort : DeclaredSort} (h : sort.Sound) :
    ∃ key, Query.readSort sort = .ok key ∧ key.declared = sort := by
  obtain ⟨direction, hword, hname⟩ := exists_direction h.direction
  refine ⟨⟨sort.name, direction⟩, ?_, ?_⟩
  · rw [Query.readSort, SortKey.ofNames?, hword]
    rfl
  · rw [SortKey.declared, hname]

/-- Sort keys that can be declared are read in their order. -/
theorem exists_keys {sorts : List DeclaredSort} (h : ∀ sort ∈ sorts, sort.Sound) :
    ∃ keys, sorts.mapM Query.readSort = .ok keys ∧ keys.map SortKey.declared = sorts := by
  induction sorts with
  | nil => exact ⟨[], rfl, rfl⟩
  | cons sort sorts ih =>
    obtain ⟨hfirst, hmore⟩ := List.forall_mem_cons.1 h
    obtain ⟨key, hkey, rfl⟩ := hfirst.exists_key
    obtain ⟨keys, hkeys, hsorts⟩ := ih hmore
    refine ⟨key :: keys, ?_, congrArg _ hsorts⟩
    rw [List.mapM_cons, hkey, hkeys]
    rfl

variable {config : Config}

theorem Valid.exists_defaults (h : config.Valid) (id title : String) : ∃ federation sorts,
    Query.withDefaults id title config.search = .ok { Query.create id title with
      federation, sorts
      spellcheck := config.search.spellcheck
      phonetics := config.search.phonetics } ∧
    federation.name = config.search.federation ∧
      sorts.map SortKey.declared = config.search.sorts := by
  obtain ⟨federation, hword, hfederation⟩ := exists_federation h.federation
  obtain ⟨keys, hkeys, hsorts⟩ := exists_keys h.sorts
  refine ⟨federation, keys, ?_, hfederation, hsorts⟩
  rw [Query.withDefaults, hword, hkeys]
  rfl

/-- A configuration that passes the validation can be used as it is declared: there is a registry
of its sources, and a query on its terms. -/
theorem valid_configuration_is_usable (h : config.validate = .ok ()) (id title : String) :
    (∃ registry, config.registry = .ok registry ∧ registry.AsDeclared config) ∧
      ∃ federation sorts, Query.withDefaults id title config.search =
          .ok { Query.create id title with
            federation, sorts
            spellcheck := config.search.spellcheck
            phonetics := config.search.phonetics } ∧
        federation.name = config.search.federation ∧
        sorts.map SortKey.declared = config.search.sorts :=
  have hvalid := validate_eq_ok_iff.1 h
  ⟨hvalid.exists_registry, hvalid.exists_defaults id title⟩

/-- A configuration with the local catalog between two other sources. -/
def siteHomeBranch : Config where
  service := ⟨"info"⟩
  catalog := ⟨"catalog", defaultQueryPath, 30000, none, []⟩
  search := ⟨10, true, "home", "selected", true, false,
    [⟨"title", "ascending"⟩, ⟨"modified", "descending"⟩]⟩
  sources := [⟨"site", "federated", false⟩, ⟨"home", "local", true⟩, ⟨"branch", "local", false⟩]

theorem siteHomeBranch_is_usable :
    siteHomeBranch.validate = .ok () ∧
    (∃ registry, siteHomeBranch.registry = .ok registry ∧
      registry.ids = ["home", "site", "branch"] ∧ registry.isLocal "home" = true ∧
        registry.isLocal "site" = false) ∧
    ∃ query, Query.withDefaults "q1" "All" siteHomeBranch.search = .ok query ∧
      query.federation = .selected ∧ query.spellcheck = true ∧
        query.sorts.map SortKey.declared = siteHomeBranch.search.sorts := by
  have hvalid : siteHomeBranch.validate = .ok () := by decide +kernel
  obtain ⟨⟨registry, hregistry, hdeclared⟩, federation, sorts, hquery, hfederation, hsorts⟩ :=
    valid_configuration_is_usable hvalid "q1" "All"
  have hselected : federation = .selected := by
    cases federation <;> first | rfl | exact absurd hfederation (by decide)
  have hsite := hdeclared.kinds ⟨"site", "federated", false⟩ List.mem_cons_self
  refine ⟨hvalid, ⟨registry, hregistry, ?_, hdeclared.isLocal, hsite⟩, _, hquery, hselected, rfl,
    hsorts⟩
  rw [hdeclared.ids]
  decide

end Config

end CatalogSearch
