import CatalogSearch.Proofs.Session.PageView
import CatalogSearch.Proofs.Session.WordSize

/-!
# The labels of pages

The label of a page tells where its records stand among all hits.  It counts the pages before
by their size, which is the number of records that each group has on a page, but it counts
the records of the page over all groups.  So the labels of a search tile the hits where one
group has all the records, or one page holds them.  Elsewhere the second page begins before
the first one ends, and the last one ends short of the hits.
-/

namespace CatalogSearch

namespace Archive

variable {archive : Archive} {first session : Session} {page : Nat}

/-! ## Counting records -/

/-- How many records all groups have together. -/
def total (archive : Archive) (first : Session) : Nat :=
  (first.sourceGroups.map fun group => (archive.records group).length).sum

/-- How many records the pages before one have of all groups. -/
def before (archive : Archive) (first : Session) (page : Nat) : Nat :=
  (first.sourceGroups.map fun group =>
    min (page * first.perPage) (archive.records group).length).sum

theorem before_zero (archive : Archive) (first : Session) : archive.before first 0 = 0 := by
  rw [before, List.sum_eq_zero_iff_forall_eq_nat]
  intro number hnumber
  obtain ⟨group, -, rfl⟩ := List.mem_map.1 hnumber
  rw [Nat.zero_mul, Nat.zero_min]

theorem before_succ (archive : Archive) (first : Session) (page : Nat) :
    archive.before first (page + 1) = archive.before first page + archive.visible first page := by
  rw [before, before, visible, ← List.sum_map_add]
  refine congrArg List.sum (List.map_congr_left fun group _ => ?_)
  rw [Nat.succ_mul]
  omega

theorem before_le_total (archive : Archive) (first : Session) (page : Nat) :
    archive.before first page ≤ archive.total first :=
  List.sum_le_sum fun _ _ => Nat.min_le_right _ _

/-- All pages together have all records. -/
theorem before_pages (hfirst : first.Readable archive) :
    archive.before first (archive.pages first) = archive.total first :=
  congrArg List.sum (List.map_congr_left fun _ hgroup =>
    Nat.min_eq_right (length_le_of_pages_le hfirst.perPage_pos (Nat.le_refl _) hgroup))

/-- A page that is not the first has records of some group, behind those of full pages. -/
theorem exists_beyond (hfirst : first.Readable archive) (hpage : page + 1 < archive.pages first) :
    ∃ group ∈ first.sourceGroups, (page + 1) * first.perPage < (archive.records group).length :=
  (lt_pages_iff hfirst.perPage_pos (Nat.le_add_left 1 page)).1 hpage

/-- The pages before are full with the records of the longest group. -/
theorem le_before (hfirst : first.Readable archive) (hpage : page < archive.pages first) :
    page * first.perPage ≤ archive.before first page := by
  cases page with
  | zero =>
    rw [Nat.zero_mul]
    exact Nat.zero_le _
  | succ page =>
    obtain ⟨group, hgroup, hlt⟩ := exists_beyond hfirst hpage
    have hmem := List.mem_map_of_mem (f := fun group =>
      min ((page + 1) * first.perPage) (archive.records group).length) hgroup
    have hterm := List.single_le_sum (fun _ _ => Nat.zero_le _) _ hmem
    rwa [Nat.min_eq_left (Nat.le_of_lt hlt)] at hterm

/-- If there are any records, every page has some. -/
theorem visible_pos (hfirst : first.Readable archive) (hpage : page < archive.pages first)
    (htotal : 0 < archive.total first) : 0 < archive.visible first page := by
  obtain ⟨group, hgroup, hlt⟩ : ∃ group ∈ first.sourceGroups,
      page * first.perPage < (archive.records group).length := by
    cases page with
    | zero =>
      obtain ⟨length, hlength, hsome⟩ := List.sum_pos_iff_exists_pos_nat.1 htotal
      obtain ⟨group, hgroup, rfl⟩ := List.mem_map.1 hlength
      exact ⟨group, hgroup, by rwa [Nat.zero_mul]⟩
    | succ page => exact exists_beyond hfirst hpage
  refine List.sum_pos_iff_exists_pos_nat.2 ⟨_, List.mem_map_of_mem hgroup, ?_⟩
  exact Nat.lt_min.2 ⟨hfirst.perPage_pos, Nat.sub_pos_of_lt hlt⟩

/-- One page holds all records, or one group has them all. -/
def Undivided (archive : Archive) (first : Session) : Prop :=
  archive.pages first = 1 ∨
    ∃ group ∈ first.sourceGroups,
      ∀ other ∈ first.sourceGroups, other ≠ group → archive.records other = []

/-- Where one group has all the records, the pages before are full with them and have no
others. -/
theorem Undivided.before_eq (h : archive.Undivided first) (hfirst : first.Readable archive)
    (hpage : page < archive.pages first) :
    archive.before first page = page * first.perPage := by
  refine Nat.le_antisymm ?_ (le_before hfirst hpage)
  obtain hone | ⟨group, hgroup, honly⟩ := h
  · obtain rfl : page = 0 := by omega
    rw [before_zero, Nat.zero_mul]
  · have hnone (other : Group) (hne : other ≠ group) (hother : other ∈ first.sourceGroups) :
        min (page * first.perPage) (archive.records other).length = 0 := by
      rw [honly other hother hne, List.length_nil, Nat.min_zero]
    have hcount : first.sourceGroups.count group = 1 :=
      List.count_eq_one_of_mem (Registry.nodup_sourceGroups hfirst.nodup) hgroup
    rw [before, List.sum_map_eq_nsmul_single group _ hnone, hcount, one_nsmul]
    exact Nat.min_le_left _ _

/-- Where several groups have records, the pages before have more than their size. -/
theorem lt_before (h : ¬archive.Undivided first) (hfirst : first.Readable archive)
    (hpage : page + 1 < archive.pages first) :
    (page + 1) * first.perPage < archive.before first (page + 1) := by
  obtain ⟨group, hgroup, hlt⟩ := exists_beyond hfirst hpage
  obtain ⟨other, hother, hne, hsome⟩ : ∃ other ∈ first.sourceGroups,
      other ≠ group ∧ archive.records other ≠ [] := by
    by_contra hnone
    refine h (.inr ⟨group, hgroup, fun other hother hne => ?_⟩)
    by_contra hsome
    exact hnone ⟨other, hother, hne, hsome⟩
  have hperm := (List.perm_cons_erase hgroup).trans
    ((List.perm_cons_erase ((List.mem_erase_of_ne hne).2 hother)).cons group)
  have hfew : 0 < min ((page + 1) * first.perPage) (archive.records other).length :=
    Nat.lt_min.2 ⟨Nat.mul_pos (Nat.succ_pos page) hfirst.perPage_pos,
      List.length_pos_of_ne_nil hsome⟩
  rw [before, (hperm.map _).sum_eq, List.map_cons, List.sum_cons, List.map_cons, List.sum_cons,
    Nat.min_eq_left (Nat.le_of_lt hlt)]
  omega

/-! ## Positions -/

/-- The position that the label of a page begins with. -/
def firstOn (first : Session) (page : Nat) : Nat := page * first.perPage + 1

/-- The position that the label of a page ends with. -/
def lastOn (archive : Archive) (first : Session) (page : Nat) : Nat :=
  page * first.perPage + archive.visible first page

/-- The label of a page, if there are any records. -/
def pageLabel (archive : Archive) (first : Session) (page : Nat) : String :=
  toString (firstOn first page) ++ "-" ++ toString (archive.lastOn first page) ++ " of " ++
    toString (archive.total first)

/-- The labels of the pages tell of each position among the hits once, in order. -/
structure Tiles (archive : Archive) (first : Session) : Prop where
  begins : firstOn first 0 = 1
  follows : ∀ page, page + 1 < archive.pages first →
    firstOn first (page + 1) = archive.lastOn first page + 1
  ends : archive.lastOn first (archive.pages first - 1) = archive.total first

/-- No label passes the hits. -/
theorem lastOn_le_total (hfirst : first.Readable archive) (hpage : page < archive.pages first) :
    archive.lastOn first page ≤ archive.total first :=
  calc archive.lastOn first page
      ≤ archive.before first page + archive.visible first page :=
        Nat.add_le_add_right (le_before hfirst hpage) _
    _ = archive.before first (page + 1) := (before_succ archive first page).symm
    _ ≤ archive.total first := before_le_total archive first (page + 1)

theorem before_last (hfirst : first.Readable archive) :
    archive.before first (archive.pages first - 1) +
      archive.visible first (archive.pages first - 1) = archive.total first := by
  rw [← before_succ, Nat.sub_add_cancel (pages_pos archive first), before_pages hfirst]

theorem Undivided.tiles (h : archive.Undivided first) (hfirst : first.Readable archive) :
    archive.Tiles first := by
  constructor
  case begins => rw [firstOn, Nat.zero_mul]
  case follows =>
    intro page hpage
    have hnext := h.before_eq hfirst hpage
    rw [before_succ, h.before_eq hfirst (Nat.lt_of_succ_lt hpage)] at hnext
    rw [firstOn, lastOn, hnext]
  case ends =>
    have hlast := h.before_eq hfirst (Nat.sub_one_lt (Nat.ne_of_gt (pages_pos archive first)))
    rw [lastOn, ← hlast, before_last hfirst]

/-- Where several groups have the records of several pages, the second page begins before the
first one ends, and the last one ends short of the hits. -/
theorem overlap_of_not_undivided (h : ¬archive.Undivided first) (hfirst : first.Readable archive) :
    firstOn first 1 ≤ archive.lastOn first 0 ∧
      archive.lastOn first (archive.pages first - 1) < archive.total first := by
  have hpos := pages_pos archive first
  have hmore : archive.pages first ≠ 1 := fun hone => h (.inl hone)
  constructor
  · have hlt : (0 + 1) * first.perPage < archive.before first (0 + 1) :=
      lt_before h hfirst (by omega)
    rw [before_succ, before_zero] at hlt
    rw [firstOn, lastOn]
    omega
  · have hlast := before_last hfirst
    obtain ⟨page, hpage⟩ : ∃ page, archive.pages first - 1 = page + 1 :=
      ⟨archive.pages first - 2, by omega⟩
    have hlt : (page + 1) * first.perPage < archive.before first (page + 1) :=
      lt_before h hfirst (by omega)
    rw [hpage] at hlast ⊢
    rw [lastOn]
    omega

/-- The labels tile the hits where one page holds them, or one group has them all. -/
theorem tiles_iff (hfirst : first.Readable archive) :
    archive.Tiles first ↔ archive.Undivided first := by
  refine ⟨fun h => ?_, fun h => h.tiles hfirst⟩
  by_contra hdivided
  exact Nat.ne_of_lt (overlap_of_not_undivided hdivided hfirst).2 h.ends

/-! ## What a page displays -/

/-- The hits on the board are the records of all groups. -/
theorem Shown.knownHits_real (h : archive.Shown first page session)
    (hfirst : first.Readable archive) :
    StatusBoard.knownHits session.statuses.real = archive.total first := by
  have hreal : session.statuses.real =
      (first.sourceGroups.flatMap
        (first.registry.groupSources first.selectedSources)).map session.statuses.status := by
    have hfilter := StatusBoard.filter_id_eq (h.distinct hfirst) fun id => id != Source.cacheId
    rw [h.ids, Registry.filter_askedIds_real] at hfilter
    exact hfilter
  rw [hreal, List.map_flatMap, StatusBoard.knownHits, List.map_flatMap, List.flatMap_def,
    List.sum_flatten, List.map_map, total]
  exact congrArg List.sum (List.map_congr_left fun group hgroup => (h.told group hgroup).1)

/-- A page is on the board, in view and staged. -/
structure Displayed (archive : Archive) (first : Session) (page : Nat) (session : Session) :
    Prop where
  shown : archive.Shown first page session
  index : session.tracker.pageIndex = page
  view : ∃ view, session.view = some view ∧ view.Displays fun id =>
    ∃ item ∈ archive.pageItems first page, item.metacard.id? = some id

namespace Displayed

/-- In view are the records that the page has of all groups. -/
theorem map_id_perm (h : archive.Displayed first page session) (hids : archive.Identified first) :
    (session.records.map fun record => some record.id).Perm
      ((archive.pageItems first page).map fun item => item.metacard.id?) := by
  obtain ⟨view, hview, hdisplays⟩ := h.view
  rw [Session.records, hview]
  exact hids.map_id_perm hdisplays

theorem length_records (h : archive.Displayed first page session)
    (hids : archive.Identified first) :
    session.records.length = archive.visible first page := by
  have hlength := (h.map_id_perm hids).length_eq
  rwa [List.length_map, List.length_map, length_pageItems] at hlength

/-- The label of what is in view. -/
theorem rangeLabel_eq (h : archive.Displayed first page session) (hfirst : first.Readable archive)
    (hids : archive.Identified first) (hpage : page < archive.pages first)
    (htotal : archive.total first < 2 ^ 64) :
    session.rangeLabel (.ofNat session.records.length) =
      if archive.total first = 0 then "0 results" else archive.pageLabel first page := by
  have hlast := lastOn_le_total hfirst hpage
  have hvisible : archive.visible first page ≤ archive.total first :=
    (Nat.le_add_left _ _).trans hlast
  have hword : (UInt64.ofNat (archive.visible first page)).toNat = archive.visible first page :=
    UInt64.toNat_ofNat_of_lt' (hvisible.trans_lt htotal)
  have hsize : session.surroundings.pageSize.toNat = first.perPage := by
    rw [h.shown.continues.surroundings, Session.perPage]
  have hpages : page ≤ page * first.perPage := Nat.le_mul_of_pos_right page hfirst.perPage_pos
  have hhits := h.shown.knownHits_real hfirst
  rw [lastOn] at hlast
  have hexact : session.rangeLabel (.ofNat (archive.visible first page)) =
      session.exactLabel (archive.visible first page) := by
    refine (Session.rangeLabel_eq_exactLabel ⟨?_, fun _ _ => ?_, fun _ _ => ?_⟩).trans
      (congrArg _ hword)
    · rwa [hhits]
    · rw [h.index]
      omega
    · rw [hword, h.index, hsize]
      omega
  rw [h.length_records hids, hexact, Session.exactLabel, hhits, h.index, hsize]
  dsimp only
  by_cases hnone : archive.total first = 0
  · rw [if_pos hnone, if_pos (by omega)]
  · have hsome := visible_pos hfirst hpage (Nat.pos_of_ne_zero hnone)
    rw [if_neg hnone, if_neg (by omega), if_neg (by omega)]
    rfl

end Displayed

end Archive

/-! ## A walk through the pages -/

namespace Traffic

open Archive Session

variable {archive : Archive} {replies : Nat → Reply} {first : Session} {page : Nat}
  {traffic next after : Traffic} {requests : List Request} {rounds : List (List Arrival)}

theorem Begun.displayed (h : Begun archive first page traffic next requests)
    (hfirst : first.Readable archive) (hcache : first.registry.cacheEnabled = false)
    (hc : Coherent traffic) (hcoherent : Coherent next)
    (hindex : next.session.tracker.pageIndex = page)
    (hview : ∃ view, next.session.view = some view ∧ view.Displays fun _ => False)
    (hexchanges : Exchanges archive replies next after) (hover : after.session.round = none) :
    archive.Displayed first page after.session := by
  have hreading := Reading.exchanges (h.apart hfirst) hexchanges (h.reading hc hcoherent)
  constructor
  case shown => exact h.shown hfirst hreading hover
  case index => rwa [hreading.keeps.tracker]
  case view => exact h.displays hfirst hcache hc hcoherent hview hexchanges hover

/-- Wherever a walk has come to, its last page is displayed. -/
theorem displayed_of_walk (hc : Coherent traffic) (hfirst : traffic.session.Readable archive)
    (hfresh : traffic.session.tracker = .fresh)
    (hcache : traffic.session.registry.cacheEnabled = false)
    (hmerges : traffic.session.merging? ≠ some false) {options : SearchOptions}
    (hcount : options.countOnly = false) (hstatuses : options.seedStatuses = [])
    (hresults : options.seedResults = []) (hwalk : Walk archive options traffic rounds after) :
    ∃ page, rounds.length = page + 1 ∧ archive.Displayed traffic.session page after.session := by
  induction hwalk with
  | first hexchanges hover =>
    have hstarts := (Continues.refl traffic.session).starts hfirst options
    have hsearch : (Operation.start options).search? traffic.session =
        some (traffic.session, options) := rfl
    have hview := Operation.exists_view_of_search? hsearch hstarts hresults hmerges
    have hindex : (traffic.session.start options).2.tracker.pageIndex = 0 := by
      rw [PageTracker.pageIndex, history_start, hfresh]
      rfl
    exact ⟨0, rfl, (begun_first hc hfirst hfresh hcount hstatuses).displayed hfirst hcache hc
      (hc.act _) hindex hview hexchanges hover⟩
  | @next rounds between after replies hwalk hmore hexchanges hover ih =>
    obtain ⟨page, hlength, hdisplayed⟩ := ih
    have hcoherent := (walked_of_walk hc hfirst hfresh hcount hstatuses hwalk).passed.coherent
    have hcontinues := hdisplayed.shown.continues
    let turned : Session :=
      { between.session with
        tracker := between.session.tracker.advance between.session.selectedSources
          between.session.registry between.session.statuses }
    have hstarts : turned.Starts {} :=
      Continues.starts ⟨hcontinues.surroundings, hcontinues.filter, hcontinues.selected⟩ hfirst {}
    have hmerging : turned.merging? ≠ some false := by
      obtain ⟨view, hview, hdisplays⟩ := hdisplayed.view
      have hsome : turned.merging? = some view.autoMerge := congrArg (Option.map _) hview
      rw [hsome, hdisplays.merges.auto]
      decide
    have hsearch : Operation.nextPage.search? between.session = some (turned, {}) := rfl
    have hview := Operation.exists_view_of_search? hsearch hstarts rfl hmerging
    have hindex : between.session.nextPage.2.tracker.pageIndex = page + 1 := by
      rw [← hdisplayed.index]
      exact congrArg List.length (history_start turned {})
    refine ⟨page + 1, by rw [List.length_append, hlength]; rfl, ?_⟩
    exact (begun_next hcoherent hfirst hdisplayed.shown).displayed hfirst hcache hcoherent
      (hcoherent.act _) hindex hview hexchanges hover

/-- The pages of a fresh search that merges on arrival, read without a hook and without the
cache from sources that reply honestly, in whatever order the replies come in.  The walk can be
brought to its end.  Each page shows the records that it has of all groups, and its label
begins behind as many positions as a page of one group has records for each page before, goes
on for as many as are in view, and tells of the records of all groups as hits.  These labels
tile the hits exactly if one page holds all records or one group has them all.  Otherwise the
second page begins before the first one ends, and the last one ends short of the hits. -/
theorem labels_along_walk (query : Query) (surroundings : Surroundings) (actions : List Action)
    (archive : Archive) (options : SearchOptions) :
    let traffic := (Traffic.create (Session.create query surroundings)).run actions
    let first := traffic.session
    first.tracker = .fresh → first.Readable archive → first.registry.cacheEnabled = false →
    first.merging? ≠ some false → options.countOnly = false → options.seedStatuses = [] →
    options.seedResults = [] → archive.Identified first → archive.total first < 2 ^ 64 →
    (∃ rounds after, Walk archive options traffic rounds after ∧
      after.session.hasNextPage = false) ∧
    (∀ rounds after, Walk archive options traffic rounds after →
      ∃ page, rounds.length = page + 1 ∧ page < archive.pages first ∧
        (after.session.hasNextPage = true ↔ page + 1 < archive.pages first) ∧
        (after.session.records.map fun record => some record.id).Perm
          ((archive.pageItems first page).map fun item => item.metacard.id?) ∧
        after.session.rangeLabel (.ofNat after.session.records.length) =
          if archive.total first = 0 then "0 results" else archive.pageLabel first page) ∧
    (archive.Tiles first ↔ archive.Undivided first) ∧
    (¬archive.Undivided first → firstOn first 1 ≤ archive.lastOn first 0 ∧
      archive.lastOn first (archive.pages first - 1) < archive.total first) := by
  intro traffic first hfresh hfirst hcache hmerges hcount hstatuses hresults hids htotal
  have hc : Coherent traffic := (Coherent.create query surroundings).run actions
  have hwalked : ∀ {rounds after}, Walk archive options traffic rounds after →
      Walked archive traffic rounds after := fun hwalk =>
    walked_of_walk hc hfirst hfresh hcount hstatuses hwalk
  refine ⟨?_, fun rounds after hwalk => ?_, tiles_iff hfirst,
    fun h => overlap_of_not_undivided h hfirst⟩
  · obtain ⟨round, after, hwalk⟩ := exists_first hc hfirst hfresh hcount hstatuses
    exact exists_end hfirst hwalk hwalked (Nat.le_add_left _ _)
  · obtain ⟨page, hlength, hdisplayed⟩ :=
      displayed_of_walk hc hfirst hfresh hcache hmerges hcount hstatuses hresults hwalk
    have hpage : page < archive.pages first := by
      have hwithin := (hwalked hwalk).within
      rwa [hlength] at hwithin
    have hmore := (hwalked hwalk).hasNextPage_iff hfirst
    rw [hlength] at hmore
    exact ⟨page, hlength, hpage, hmore, hdisplayed.map_id_perm hids,
      hdisplayed.rangeLabel_eq hfirst hids hpage htotal⟩

/-- Three records of the local catalog and none of any site. -/
def threeAtHome : Archive where
  records group := if group = .localSites then threeAndOne.records group else []

theorem three_at_home_are_tiled :
    threeAtHome.Tiles homeAndSite ∧
      ∃ rounds after, Walk threeAtHome {} (.create homeAndSite) rounds after ∧
        after.session.hasNextPage = false ∧ after.session.records.length = 1 ∧
        after.session.rangeLabel 1 = "3-3 of 3" := by
  have hreadable : homeAndSite.Readable threeAtHome :=
    { homeAndSite_readable with bounded := by decide +kernel }
  have hids : threeAtHome.Identified homeAndSite := ⟨by decide +kernel, by decide +kernel⟩
  obtain ⟨⟨rounds, after, hwalk, hend⟩, hlabels, htiles, -⟩ :=
    labels_along_walk homeAndSite.query homeAndSite.surroundings [] threeAtHome {} rfl hreadable
      rfl nofun rfl rfl rfl hids (by decide +kernel)
  have hpages : threeAtHome.pages homeAndSite = 2 := by decide +kernel
  have honly : threeAtHome.Undivided homeAndSite := by
    refine .inr ⟨.localSites, by decide +kernel, fun other _ hne => ?_⟩
    exact if_neg hne
  obtain ⟨page, -, hpage, hmore, hrecords, hlabel⟩ := hlabels rounds after hwalk
  have hless : page < 2 := hpage.trans_eq hpages
  have hlast : ¬page + 1 < 2 := fun hlt =>
    Bool.eq_false_iff.1 hend (hmore.2 (hlt.trans_eq hpages.symm))
  obtain rfl : page = 1 := by omega
  have hlength := hrecords.length_eq
  rw [List.length_map, List.length_map] at hlength
  have hone : after.session.records.length = 1 := hlength.trans (by decide +kernel)
  rw [hone] at hlabel
  exact ⟨htiles.2 honly, rounds, after, hwalk, hend, hone, hlabel.trans (by decide +kernel)⟩

/-- With a record of a site on the first page, the label of the second page tells again of the
position with which that of the first one ends, and never of the last of the hits. -/
theorem second_label_repeats_position :
    homeAndSite.Readable threeAndOne ∧ threeAndOne.Identified homeAndSite ∧
      homeAndSite.registry.cacheEnabled = false ∧
      ∃ round last between after,
        Walk threeAndOne {} (.create homeAndSite) [round] between ∧
        between.session.rangeLabel (.ofNat between.session.records.length) = "1-3 of 4" ∧
        Walk threeAndOne {} (.create homeAndSite) [round, last] after ∧
        after.session.hasNextPage = false ∧
        after.session.rangeLabel (.ofNat after.session.records.length) = "3-3 of 4" := by
  have hids : threeAndOne.Identified homeAndSite := ⟨by decide +kernel, by decide +kernel⟩
  have hc : Coherent (.create homeAndSite) :=
    .create homeAndSite.query homeAndSite.surroundings
  have hpages : threeAndOne.pages homeAndSite = 2 := by decide +kernel
  have hwalked {rounds : List (List Arrival)} {after : Traffic}
      (hwalk : Walk threeAndOne {} (.create homeAndSite) rounds after) :
      Walked threeAndOne (.create homeAndSite) rounds after :=
    walked_of_walk hc homeAndSite_readable rfl rfl rfl hwalk
  have hlabel {rounds : List (List Arrival)} {after : Traffic} {page : Nat}
      (hwalk : Walk threeAndOne {} (.create homeAndSite) rounds after)
      (hlength : rounds.length = page + 1) :
      after.session.rangeLabel (.ofNat after.session.records.length) =
        threeAndOne.pageLabel homeAndSite page := by
    obtain ⟨other, hother, hdisplayed⟩ :=
      displayed_of_walk hc homeAndSite_readable rfl rfl nofun rfl rfl rfl hwalk
    obtain rfl : other = page := Nat.succ.inj (hother.symm.trans hlength)
    have hpage := (hwalked hwalk).within
    rw [hlength] at hpage
    exact (hdisplayed.rangeLabel_eq homeAndSite_readable hids hpage (by decide +kernel)).trans
      (if_neg (by decide +kernel))
  obtain ⟨round, between, hwalk⟩ :
      ∃ round between, Walk threeAndOne {} (.create homeAndSite) [round] between :=
    exists_first hc homeAndSite_readable rfl rfl rfl
  have hmore := ((hwalked hwalk).hasNextPage_iff homeAndSite_readable).2 (hpages ▸ Nat.one_lt_two)
  obtain ⟨last, after, hnext⟩ := hwalk.exists_next homeAndSite_readable (hwalked hwalk) hmore
  have hfirst : threeAndOne.pageLabel homeAndSite 0 = "1-3 of 4" := by decide +kernel
  have hsecond : threeAndOne.pageLabel homeAndSite 1 = "3-3 of 4" := by decide +kernel
  refine ⟨homeAndSite_readable, hids, rfl, round, last, between, after, hwalk,
    (hlabel hwalk rfl).trans hfirst, hnext, ?_, (hlabel hnext rfl).trans hsecond⟩
  rw [Bool.eq_false_iff, Ne, (hwalked hnext).hasNextPage_iff homeAndSite_readable]
  exact Nat.not_lt.2 (Nat.le_of_eq hpages)

end Traffic

end CatalogSearch
