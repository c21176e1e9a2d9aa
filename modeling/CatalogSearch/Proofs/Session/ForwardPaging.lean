import CatalogSearch.Proofs.Session.PageRound

/-!
# Paging forward through an archive

Whoever starts a search at the first page, waits until its round has settled, and turns
the page as long as there is a next one, reads every record of every group once, in order,
and stops with the last page that has records.
-/

namespace CatalogSearch

namespace Archive

/-- The number of pages of an archive: one, or as many as its longest group has. -/
def pages (archive : Archive) (first : Session) : Nat :=
  (first.sourceGroups.map fun group =>
    ((archive.records group).length + first.perPage - 1) / first.perPage).foldr max 1

theorem lt_pages_iff {archive : Archive} {first : Session} (hpos : 0 < first.perPage)
    {page : Nat} (hpage : 1 ≤ page) :
    page < archive.pages first ↔
      ∃ group ∈ first.sourceGroups, page * first.perPage < (archive.records group).length := by
  have hceil (size : Nat) :
      page < (size + first.perPage - 1) / first.perPage ↔ page * first.perPage < size := by
    rw [← Nat.succ_le_iff, Nat.le_div_iff_mul_le hpos, Nat.succ_mul]
    omega
  rw [pages]
  induction first.sourceGroups with
  | nil => simp [Nat.not_lt.2 hpage]
  | cons group groups ih =>
    rw [List.map_cons, List.foldr_cons, lt_max_iff, hceil, List.exists_mem_cons_iff]
    exact or_congr Iff.rfl ih

theorem pages_pos (archive : Archive) (first : Session) : 0 < archive.pages first := by
  rw [pages]
  induction first.sourceGroups with
  | nil => exact Nat.one_pos
  | cons group groups ih => exact lt_max_of_lt_right ih

/-- As many pages as an archive has hold every group. -/
theorem length_le_of_pages_le {archive : Archive} {first : Session} (hpos : 0 < first.perPage)
    {count : Nat} (hcount : archive.pages first ≤ count) {group : Group}
    (hgroup : group ∈ first.sourceGroups) :
    (archive.records group).length ≤ count * first.perPage := by
  have hpage : 1 ≤ count := Nat.le_trans (pages_pos archive first) hcount
  refine Nat.not_lt.1 fun hlt => Nat.not_lt.2 hcount ?_
  exact (lt_pages_iff hpos hpage).2 ⟨group, hgroup, hlt⟩

end Archive

namespace Traffic

/-- A walk through the pages of a search, with what was asked and replied in each round: the
first round is that of the search; once it has settled the next page is asked for, if there
is one. -/
inductive Walk (archive : Archive) (options : SearchOptions) (traffic : Traffic) :
    List (List Arrival) → Traffic → Prop
  | first {replies : Nat → Reply} {after : Traffic}
      (hexchanges : Exchanges archive replies (traffic.act (.operate (.start options))) after)
      (hover : after.session.round = none) :
      Walk archive options traffic
        [exchange traffic.sent.length ((Operation.start options).run traffic.session).2 replies]
        after
  | next {rounds : List (List Arrival)} {between after : Traffic} {replies : Nat → Reply}
      (hwalk : Walk archive options traffic rounds between)
      (hmore : between.session.hasNextPage = true)
      (hexchanges : Exchanges archive replies (between.act (.operate .nextPage)) after)
      (hover : after.session.round = none) :
      Walk archive options traffic
        (rounds ++
          [exchange between.sent.length (Operation.nextPage.run between.session).2 replies])
        after

variable {archive : Archive} {replies : Nat → Reply} {page : Nat}
  {traffic between next after : Traffic} {requests : List Request}
  {rounds : List (List Arrival)}

/-- Some rounds are over, which were sent since a walk began, and were read to the end. -/
structure Passed (archive : Archive) (traffic : Traffic) (rounds : List (List Arrival))
    (after : Traffic) : Prop where
  coherent : Coherent after
  sent : after.sent = traffic.sent ++ rounds.flatten.map Arrival.request
  applied : ∀ call, traffic.sent.length ≤ call → call < after.sent.length → call ∈ after.applied
  honest : ∀ arrival ∈ rounds.flatten, archive.Honest arrival.request arrival.reply
  read : ∀ group ∈ traffic.session.sourceGroups, itemsOf group rounds =
    (archive.records group).take (rounds.length * traffic.session.perPage)

theorem Passed.nil (hc : Coherent traffic) : Passed archive traffic [] traffic where
  coherent := hc
  sent := (List.append_nil _).symm
  applied _ hle hlt := absurd hle (Nat.not_le.2 hlt)
  honest := nofun
  read group _ := by
    rw [List.length_nil, Nat.zero_mul, List.take_zero]
    rfl

/-- The next round is read behind those that are over. -/
theorem Passed.concat (h : Passed archive traffic rounds between)
    (hfirst : traffic.session.Readable archive)
    (hbegun : Begun archive traffic.session rounds.length between next requests)
    (hreading : Reading archive replies next after) (hover : after.session.round = none) :
    Passed archive traffic (rounds ++ [exchange between.sent.length requests replies]) after := by
  constructor
  case coherent => exact hreading.coherent
  case sent =>
    rw [hreading.sent, hbegun.sent, h.sent, List.flatten_append, List.flatten_singleton,
      List.map_append, map_request_exchange, List.append_assoc]
  case applied =>
    intro call hle hlt
    obtain hbefore | hlast := Nat.lt_or_ge call between.sent.length
    · exact hreading.kept (hbegun.applied ▸ h.applied call hle hbefore)
    · rw [hreading.sent, hbegun.sent, List.length_append] at hlt
      have hindex : call - between.sent.length < requests.length := by omega
      have hlatest : next.Latest call requests[call - between.sent.length] :=
        hbegun.latest_iff.2 ⟨_, (Nat.add_sub_of_le hlast).symm, List.getElem?_eq_getElem hindex⟩
      exact hreading.settled hover call _ (hreading.latest_iff.2 hlatest)
  case honest =>
    rw [List.flatten_append, List.flatten_singleton]
    intro arrival harrival
    obtain hearlier | hlast := List.mem_append.1 harrival
    · exact h.honest arrival hearlier
    · exact hbegun.honest hreading hover arrival hlast
  case read =>
    intro group hgroup
    rw [itemsOf_append, h.read group hgroup, hbegun.itemsOf_eq hfirst hreading hover hgroup,
      List.length_append, List.length_singleton, Nat.succ_mul, List.take_add]

/-- A search from the first page on begins it. -/
theorem begun_first (hc : Coherent traffic) (hfirst : traffic.session.Readable archive)
    (hfresh : traffic.session.tracker = .fresh) {options : SearchOptions}
    (hcount : options.countOnly = false) (hseeds : options.seedStatuses = []) :
    Begun archive traffic.session 0 traffic (traffic.act (.operate (.start options)))
      ((Operation.start options).run traffic.session).2 := by
  refine begun_of_search hc hfirst rfl hseeds hcount (.refl _) ?_
  rw [hfresh]
  exact Archive.staged_fresh archive traffic.session

/-- Turning a page that is shown begins the next one. -/
theorem begun_next {first : Session} (hc : Coherent traffic) (hfirst : first.Readable archive)
    (hshown : archive.Shown first page traffic.session) :
    Begun archive first (page + 1) traffic (traffic.act (.operate .nextPage))
      (Operation.nextPage.run traffic.session).2 := by
  have hcontinues := hshown.continues
  refine begun_of_search hc hfirst rfl rfl rfl ?_ (hshown.staged_following hfirst)
  exact ⟨hcontinues.surroundings, hcontinues.filter, hcontinues.selected⟩

/-- What holds after some rounds of a walk. -/
structure Walked (archive : Archive) (traffic : Traffic) (rounds : List (List Arrival))
    (after : Traffic) : Prop where
  passed : Passed archive traffic rounds after
  shown : ∃ page, rounds.length = page + 1 ∧ archive.Shown traffic.session page after.session
  within : rounds.length ≤ archive.pages traffic.session

theorem Walked.concat (h : Passed archive traffic rounds between)
    (hfirst : traffic.session.Readable archive)
    (hbegun : Begun archive traffic.session rounds.length between next requests)
    (hcoherent : Coherent next) (hexchanges : Exchanges archive replies next after)
    (hover : after.session.round = none) (hwithin : rounds.length < archive.pages traffic.session) :
    Walked archive traffic (rounds ++ [exchange between.sent.length requests replies]) after := by
  have hreading : Reading archive replies next after :=
    .exchanges (hbegun.apart hfirst) hexchanges (hbegun.reading h.coherent hcoherent)
  constructor
  case passed => exact h.concat hfirst hbegun hreading hover
  case shown => exact ⟨rounds.length, List.length_append, hbegun.shown hfirst hreading hover⟩
  case within =>
    rw [List.length_append]
    exact hwithin

/-- There is a next page exactly as long as not all pages were read. -/
theorem Walked.hasNextPage_iff (h : Walked archive traffic rounds after)
    (hfirst : traffic.session.Readable archive) :
    after.session.hasNextPage = true ↔ rounds.length < archive.pages traffic.session := by
  obtain ⟨page, hlength, hshown⟩ := h.shown
  rw [hshown.hasNextPage_iff hfirst, hlength,
    Archive.lt_pages_iff hfirst.perPage_pos (Nat.le_add_left 1 page)]

theorem walked_of_walk (hc : Coherent traffic) (hfirst : traffic.session.Readable archive)
    (hfresh : traffic.session.tracker = .fresh) {options : SearchOptions}
    (hcount : options.countOnly = false) (hseeds : options.seedStatuses = [])
    (hwalk : Walk archive options traffic rounds after) : Walked archive traffic rounds after := by
  induction hwalk with
  | first hexchanges hover =>
    exact .concat (.nil hc) hfirst (begun_first hc hfirst hfresh hcount hseeds) (hc.act _)
      hexchanges hover (Archive.pages_pos archive traffic.session)
  | next _ hmore hexchanges hover ih =>
    obtain ⟨page, hlength, hshown⟩ := ih.shown
    have hcoherent := ih.passed.coherent
    have hbegun := begun_next hcoherent hfirst hshown
    rw [← hlength] at hbegun
    exact .concat ih.passed hfirst hbegun (hcoherent.act _) hexchanges hover
      ((ih.hasNextPage_iff hfirst).1 hmore)

/-- A walk can always be begun. -/
theorem exists_first (hc : Coherent traffic) (hfirst : traffic.session.Readable archive)
    (hfresh : traffic.session.tracker = .fresh) {options : SearchOptions}
    (hcount : options.countOnly = false) (hseeds : options.seedStatuses = []) :
    ∃ round after, Walk archive options traffic [round] after := by
  obtain ⟨replies, after, hexchanges, hover⟩ :=
    (begun_first hc hfirst hfresh hcount hseeds).exists_over hfirst hc (hc.act _)
  exact ⟨_, after, .first hexchanges hover⟩

/-- As long as there is a next page, a walk can be continued. -/
theorem Walk.exists_next {options : SearchOptions}
    (hwalk : Walk archive options traffic rounds after) (hfirst : traffic.session.Readable archive)
    (hwalked : Walked archive traffic rounds after) (hmore : after.session.hasNextPage = true) :
    ∃ round further, Walk archive options traffic (rounds ++ [round]) further := by
  obtain ⟨page, -, hshown⟩ := hwalked.shown
  have hcoherent := hwalked.passed.coherent
  obtain ⟨replies, further, hexchanges, hover⟩ :=
    (begun_next hcoherent hfirst hshown).exists_over hfirst hcoherent (hcoherent.act _)
  exact ⟨_, further, .next hwalk hmore hexchanges hover⟩

/-- A walk can always be brought to its end. -/
theorem exists_end (hfirst : traffic.session.Readable archive) {options : SearchOptions}
    {left : Nat} (hwalk : Walk archive options traffic rounds after)
    (hwalked : ∀ {rounds after}, Walk archive options traffic rounds after →
      Walked archive traffic rounds after)
    (hleft : archive.pages traffic.session ≤ rounds.length + left) :
    ∃ rounds after, Walk archive options traffic rounds after ∧
      after.session.hasNextPage = false := by
  induction left generalizing rounds after with
  | zero =>
    refine ⟨rounds, after, hwalk, ?_⟩
    rw [Bool.eq_false_iff, Ne, (hwalked hwalk).hasNextPage_iff hfirst]
    exact Nat.not_lt.2 hleft
  | succ left ih =>
    cases hmore : after.session.hasNextPage with
    | false => exact ⟨rounds, after, hwalk, hmore⟩
    | true =>
      obtain ⟨round, further, hnext⟩ := hwalk.exists_next hfirst (hwalked hwalk) hmore
      refine ih hnext ?_
      rw [List.length_append, List.length_singleton]
      omega

/-- A fresh search of some sources reads, page by page and without a hook, every record of
each of its groups once and in order, whatever honest replies there are, in whatever order
they come in, and whatever replies to earlier searches come in between.  As long as replies
come in, it can be brought to its end; there is a next page exactly as long as the pages of
the longest group were not all read; and every request of the walk had its reply applied. -/
theorem forward_paging_reads_all (query : Query) (surroundings : Surroundings)
    (actions : List Action) (archive : Archive) (options : SearchOptions) :
    let traffic := (Traffic.create (Session.create query surroundings)).run actions
    traffic.session.tracker = .fresh → traffic.session.Readable archive →
    options.countOnly = false → options.seedStatuses = [] →
    (∃ rounds after, Walk archive options traffic rounds after ∧
      after.session.hasNextPage = false) ∧
    ∀ rounds after, Walk archive options traffic rounds after →
      after.sent = traffic.sent ++ rounds.flatten.map Arrival.request ∧
      (∀ call, traffic.sent.length ≤ call → call < after.sent.length →
        call ∈ after.applied) ∧
      (∀ arrival ∈ rounds.flatten, archive.Honest arrival.request arrival.reply) ∧
      rounds.length ≤ archive.pages traffic.session ∧
      (after.session.hasNextPage = true ↔ rounds.length < archive.pages traffic.session) ∧
      (∀ group ∈ traffic.session.sourceGroups, itemsOf group rounds =
        (archive.records group).take (rounds.length * traffic.session.perPage)) ∧
      (after.session.hasNextPage = false →
        rounds.length = archive.pages traffic.session ∧
          ∀ group ∈ traffic.session.sourceGroups,
            itemsOf group rounds = archive.records group) := by
  intro traffic hfresh hfirst hcount hseeds
  have hc : Coherent traffic := (Coherent.create query surroundings).run actions
  have hwalked : ∀ {rounds after}, Walk archive options traffic rounds after →
      Walked archive traffic rounds after := fun hwalk =>
    walked_of_walk hc hfirst hfresh hcount hseeds hwalk
  constructor
  · obtain ⟨replies, after, hexchanges, hover⟩ :=
      (begun_first hc hfirst hfresh hcount hseeds).exists_over hfirst hc (hc.act _)
    exact exists_end hfirst (.first hexchanges hover) hwalked (Nat.le_add_left _ _)
  · intro rounds after hwalk
    have h := hwalked hwalk
    refine ⟨h.passed.sent, h.passed.applied, h.passed.honest, h.within,
      h.hasNextPage_iff hfirst, h.passed.read, fun hlast => ?_⟩
    have hall : archive.pages traffic.session ≤ rounds.length := by
      rw [← Nat.not_lt, ← h.hasNextPage_iff hfirst, hlast]
      exact Bool.false_ne_true
    refine ⟨Nat.le_antisymm h.within hall, fun group hgroup => ?_⟩
    rw [h.passed.read group hgroup]
    exact List.take_of_length_le (Archive.length_le_of_pages_le hfirst.perPage_pos hall hgroup)

/-- Three records of the local catalog and one of each site. -/
def threeAndOne : Archive where
  records group :=
    let item (id : String) : Answer.Item := ⟨⟨[("id", .string id)]⟩, none, none⟩
    if group = .localSites then ["first", "second", "third"].map item else [item "other"]

/-- A session that searches the local catalog and a site, two records a page. -/
def homeAndSite : Session :=
  .create (.create "query" "Search")
    ⟨(Registry.create "home" false).register ⟨"site", .federatedSite, true⟩, 2, 1000, none⟩

theorem homeAndSite_readable : homeAndSite.Readable threeAndOne where
  unhooked := rfl
  filter := rfl
  pageSize := by decide
  nodup := by decide +kernel
  real := ⟨"home", by decide +kernel, by decide⟩
  named := by decide +kernel
  bounded := by decide +kernel

theorem three_and_one_read :
    homeAndSite.tracker = .fresh ∧ homeAndSite.Readable threeAndOne ∧
      ∃ rounds after, Walk threeAndOne {} (.create homeAndSite) rounds after ∧
        after.session.hasNextPage = false ∧ rounds.length = 2 ∧
        itemsOf .localSites rounds = threeAndOne.records .localSites ∧
        itemsOf (.site "site") rounds = threeAndOne.records (.site "site") := by
  obtain ⟨⟨rounds, after, hwalk, hend⟩, hreads⟩ :=
    forward_paging_reads_all homeAndSite.query homeAndSite.surroundings [] threeAndOne {} rfl
      homeAndSite_readable rfl rfl
  obtain ⟨-, -, -, -, -, -, hall⟩ := hreads rounds after hwalk
  obtain ⟨hlength, hitems⟩ := hall hend
  have hpages : threeAndOne.pages homeAndSite = 2 := by decide +kernel
  have hgroups : .localSites ∈ homeAndSite.sourceGroups ∧ .site "site" ∈ homeAndSite.sourceGroups := by
    decide +kernel
  exact ⟨rfl, homeAndSite_readable, rounds, after, hwalk, hend, hlength.trans hpages,
    hitems _ hgroups.1, hitems _ hgroups.2⟩

end Traffic

end CatalogSearch
