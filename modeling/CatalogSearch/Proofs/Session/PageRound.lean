import CatalogSearch.Proofs.Session.Page

/-!
# The round of a page

A search from a session in which a page is staged asks each group for its records on that
page.  Once its round has settled, by honest replies in any order, the board shows the page;
and it can always be brought there.
-/

namespace CatalogSearch

/-- The records that a reply brings. -/
def Arrival.items (arrival : Arrival) : List Answer.Item :=
  match arrival.reply with
  | .ok answer => answer.items
  | .error _ => []

/-- The records of a group that the replies of some rounds bring, one after the other. -/
def itemsOf (group : Group) (rounds : List (List Arrival)) : List Answer.Item :=
  (rounds.flatten.filter fun arrival => arrival.request.group == group).flatMap Arrival.items

theorem itemsOf_append (group : Group) (rounds more : List (List Arrival)) :
    itemsOf group (rounds ++ more) = itemsOf group rounds ++ itemsOf group more := by
  rw [itemsOf, List.flatten_append, List.filter_append, List.flatMap_append]
  rfl

namespace Traffic

open Archive

variable {archive : Archive} {replies : Nat → Reply} {first before : Session} {page : Nat}
  {traffic next after : Traffic} {requests : List Request}

/-- Requests that ask no source twice ask different sources. -/
theorem disjoint_of_nodup (h : (requests.flatMap Request.sources).Nodup) {index other : Nat}
    {request another : Request} (hindex : requests[index]? = some request)
    (hother : requests[other]? = some another) (hne : index ≠ other) :
    request.sources.Disjoint another.sources := by
  have hpairwise := List.pairwise_iff_getElem.1 (List.nodup_flatMap.1 h).2
  obtain ⟨hlt, rfl⟩ := List.getElem?_eq_some_iff.1 hindex
  obtain ⟨hlt', rfl⟩ := List.getElem?_eq_some_iff.1 hother
  obtain hbefore | hafter := Nat.lt_or_gt_of_ne hne
  · exact hpairwise _ _ hlt hlt' hbefore
  · exact fun _ hid hid' => hpairwise _ _ hlt' hlt hafter hid' hid

/-- Some requests, which are numbered from `base` on, with the replies to them. -/
def exchange (base : Nat) (requests : List Request) (replies : Nat → Reply) : List Arrival :=
  (requests.zipIdx base).map fun entry => ⟨entry.1, replies entry.2⟩

theorem map_request_exchange (base : Nat) (requests : List Request) (replies : Nat → Reply) :
    (exchange base requests replies).map Arrival.request = requests := by
  rw [exchange, List.map_map]
  exact List.zipIdx_map_fst base requests

/-- A page was sent. -/
structure Begun (archive : Archive) (first : Session) (page : Nat) (traffic next : Traffic)
    (requests : List Request) : Prop where
  sent : next.sent = traffic.sent ++ requests
  queue : next.queue = []
  applied : next.applied = traffic.applied
  answered : next.answered = traffic.answered
  running : ∃ outstanding, next.session.round = some ⟨next.session.rounds, outstanding⟩
  earlier : ∀ request ∈ traffic.sent, request.round ≠ next.session.rounds
  latest : ∀ request ∈ requests, request.round = next.session.rounds
  statuses : next.session.statuses = .start (first.registry.askedIds first.selectedSources) []
  split : ∃ base : Request,
    requests = base.split first.selectedSources first.registry next.session.tracker ∧
      base.count = first.surroundings.pageSize
  continues : first.Continues next.session
  staged : archive.Staged first page next.session.tracker.current

/-- A search sends the page that is staged. -/
theorem begun_of_search (hc : Coherent traffic) (hfirst : first.Readable archive)
    {operation : Operation} {options : SearchOptions}
    (hsearch : operation.search? traffic.session = some (before, options))
    (hseeds : operation.seeds traffic.session = []) (hcount : options.countOnly = false)
    (hcontinues : first.Continues before) (hstaged : archive.Staged first page before.tracker.next) :
    Begun archive first page traffic (traffic.act (.operate operation))
      (operation.run traffic.session).2 := by
  have hstarts := hcontinues.starts hfirst options
  have hpulls : operation.pulls = false := by
    cases operation <;> first | rfl | cases hsearch
  have hrun := Operation.run_of_search? hsearch
  have hprepared := Session.prepared_start_of_starts hstarts
  have hsplit : (operation.run traffic.session).2 =
      (before.baseRequest options).split first.selectedSources first.registry
        before.tracker.beginRound := by
    rw [hrun, Session.sent_start_of_starts hstarts, hcontinues.roundRequests_eq hfirst]
  have hsome : (operation.run traffic.session).2 ≠ [] := by
    rw [hsplit]
    exact Request.split_ne_nil hfirst.real
  have hasked : Session.askedSources (operation.run traffic.session).2 =
      first.registry.askedIds first.selectedSources := by
    rw [hsplit, Request.askedSources_split hfirst.nodup]
  have hafter : (operation.run traffic.session).1 = (Session.sending (before.start options)).1 := by
    rw [hrun]
  have heffect := operation.effect_run traffic.session hpulls
  rw [hseeds] at heffect
  generalize hrequests : (operation.run traffic.session).2 = requests at *
  cases heffect with
  | quiet => exact absurd rfl hsome
  | ended => exact absurd rfl hsome
  | sent _ _ hround hrounds hinbox hstatuses _ hof =>
    have hoperate := operate_of_inbox_nil hc.inStep hpulls hinbox
    rw [hrequests] at hoperate
    rw [act, hoperate]
    constructor
    case sent => rfl
    case queue => rfl
    case applied => rfl
    case answered => rfl
    case running => exact ⟨_, by rw [hround, hrounds]⟩
    case earlier =>
      intro request hrequest hof
      have hle := (hc.sent_round request hrequest).2
      rw [hof] at hle
      change (operation.run traffic.session).1.rounds ≤ _ at hle
      rw [hrounds] at hle
      exact Nat.not_succ_le_self _ hle
    case latest =>
      intro request hrequest
      exact (hof request hrequest).trans hrounds.symm
    case statuses => rw [hstatuses, hasked]
    case split =>
      refine ⟨before.baseRequest options, ?_, ?_⟩
      · rw [hsplit]
        change _ = Request.split _ _ _ (operation.run traffic.session).1.tracker
        rw [hafter, hprepared.tracker]
      · rw [Session.baseRequest, hcount, ← hcontinues.surroundings]
        rfl
    case continues =>
      change first.Continues (operation.run traffic.session).1
      rw [hafter]
      exact hcontinues.prepared hprepared
    case staged =>
      change archive.Staged first page (operation.run traffic.session).1.tracker.current
      rw [hafter, hprepared.tracker]
      exact hstaged

namespace Begun

/-- The requests of the page come after all earlier ones. -/
theorem latest_iff (h : Begun archive first page traffic next requests) {call : Nat}
    {request : Request} :
    next.Latest call request ↔
      ∃ index, call = traffic.sent.length + index ∧ requests[index]? = some request := by
  rw [Latest, h.sent]
  constructor
  · rintro ⟨hcall, hround⟩
    obtain hlt | hle := Nat.lt_or_ge call traffic.sent.length
    · rw [List.getElem?_append_left hlt] at hcall
      exact absurd hround (h.earlier request (List.mem_of_getElem? hcall))
    · rw [List.getElem?_append_right hle] at hcall
      exact ⟨_, (Nat.add_sub_of_le hle).symm, hcall⟩
  · rintro ⟨index, rfl, hindex⟩
    rw [List.getElem?_append_right (Nat.le_add_right _ _), Nat.add_sub_cancel_left]
    exact ⟨hindex, h.latest request (List.mem_of_getElem? hindex)⟩

theorem sources_eq (h : Begun archive first page traffic next requests) :
    requests.flatMap Request.sources = first.registry.askedIds first.selectedSources := by
  obtain ⟨base, hsplit, -⟩ := h.split
  rw [hsplit, Request.flatMap_sources_split]

theorem apart (h : Begun archive first page traffic next requests)
    (hfirst : first.Readable archive) : Apart next := by
  constructor
  · intro call request hlatest id hid
    obtain ⟨index, -, hindex⟩ := h.latest_iff.1 hlatest
    rw [h.statuses, StatusBoard.ids_start_nil, ← h.sources_eq]
    exact List.mem_flatMap.2 ⟨request, List.mem_of_getElem? hindex, hid⟩
  · intro call request other another hlatest hother hne
    obtain ⟨index, rfl, hindex⟩ := h.latest_iff.1 hlatest
    obtain ⟨place, rfl, hplace⟩ := h.latest_iff.1 hother
    have hnodup : (requests.flatMap Request.sources).Nodup := by
      rw [h.sources_eq]
      exact Registry.nodup_askedIds hfirst.nodup
    exact disjoint_of_nodup hnodup hindex hplace fun heq => hne (congrArg _ heq)

/-- Nothing was told of the page when it was sent. -/
theorem reading (h : Begun archive first page traffic next requests) (hc : Coherent traffic)
    (hcoherent : Coherent next) : Reading archive replies next next := by
  have hnew : ∀ call request, next.Latest call request → traffic.sent.length ≤ call := by
    intro call request hlatest
    obtain ⟨index, rfl, -⟩ := h.latest_iff.1 hlatest
    exact Nat.le_add_right _ _
  obtain ⟨outstanding, hround⟩ := h.running
  constructor
  case coherent => exact hcoherent
  case keeps => exact .refl next.session
  case sent => rfl
  case rounds => rfl
  case ids => rfl
  case running =>
    intro round hrunning
    rw [hround, Option.some.injEq] at hrunning
    rw [← hrunning]
  case honest =>
    rw [h.queue]
    exact nofun
  case fresh =>
    intro call request hlatest _ id hid
    rw [h.statuses]
    exact StatusBoard.status_start_nil _ id
  case told =>
    intro call request hlatest happlied
    rw [h.applied] at happlied
    exact absurd (hc.applied_lt happlied) (Nat.not_lt.2 (hnew call request hlatest))
  case settled =>
    intro hover
    rw [hround] at hover
    cases hover
  case arrived =>
    intro _ call request hlatest hanswered
    rw [h.answered] at hanswered
    exact absurd (hc.answered_lt call hanswered) (Nat.not_lt.2 (hnew call request hlatest))
  case kept => exact List.Subset.refl _
  case heard =>
    intro call request hlatest hanswered
    rw [h.answered] at hanswered
    exact absurd (hc.answered_lt call hanswered) (Nat.not_lt.2 (hnew call request hlatest))

/-- The request of the page for a group asks for what the page has of it. -/
theorem slice_forGroup (h : Begun archive first page traffic next requests) {base : Request}
    (hcount : base.count = first.surroundings.pageSize) {group : Group}
    (hgroup : group ∈ first.sourceGroups) (sources : List String) :
    archive.slice (base.forGroup next.session.tracker group sources) =
      ((archive.records group).drop (page * first.perPage)).take first.perPage := by
  have hstart : (next.session.tracker.startOf group.key).toNat =
      min (page * first.perPage) (archive.records group).length + 1 := h.staged.start group hgroup
  have hdrop : (archive.records group).drop
      (min (page * first.perPage) (archive.records group).length) =
        (archive.records group).drop (page * first.perPage) :=
    List.drop_eq_drop_iff.2 (by omega)
  rw [Archive.slice, Request.forGroup, hcount]
  dsimp only
  rw [hstart, Nat.add_sub_cancel, hdrop]
  rfl

theorem exists_request (h : Begun archive first page traffic next requests)
    (hfirst : first.Readable archive) {group : Group} (hgroup : group ∈ first.sourceGroups) :
    ∃ request, requests.filter (fun request => request.group == group) = [request] ∧
      request.group = group ∧
      request.sources = first.registry.groupSources first.selectedSources group ∧
      archive.slice request =
        ((archive.records group).drop (page * first.perPage)).take first.perPage := by
  obtain ⟨base, hsplit, hcount⟩ := h.split
  let sources := first.registry.groupSources first.selectedSources group
  refine ⟨base.forGroup next.session.tracker group sources, ?_, rfl, rfl,
    h.slice_forGroup hcount hgroup sources⟩
  rw [hsplit, Request.filter_group_split hfirst.nodup hgroup]

/-- The board shows the page once its round has settled. -/
theorem shown (h : Begun archive first page traffic next requests)
    (hfirst : first.Readable archive)
    (hreading : Reading archive replies next after) (hover : after.session.round = none) :
    archive.Shown first page after.session := by
  constructor
  case continues => exact h.continues.keeps hreading.keeps
  case staged => exact hreading.keeps.tracker ▸ h.staged
  case ids => rw [hreading.ids, h.statuses, StatusBoard.ids_start_nil]
  case told =>
    intro group hgroup
    obtain ⟨request, hfilter, rfl, hsources, hslice⟩ := h.exists_request hfirst hgroup
    have hmem : request ∈ requests :=
      (List.mem_filter.1 (hfilter ▸ List.mem_singleton_self request)).1
    obtain ⟨index, hindex⟩ := List.mem_iff_getElem?.1 hmem
    have hlatest : after.Latest (traffic.sent.length + index) request :=
      hreading.latest_iff.2 (h.latest_iff.2 ⟨index, rfl, hindex⟩)
    have htold := hreading.told _ request hlatest (hreading.settled hover _ request hlatest)
      (Registry.ne_cache_of_mem_sourceGroups hgroup)
    rw [← hsources]
    refine ⟨htold.hits, htold.count.trans ?_⟩
    rw [hslice, List.length_take, List.length_drop]
    omega

/-- Every request of a page can be answered from the archive. -/
theorem honest_reply (h : Begun archive first page traffic next requests)
    (hfirst : first.Readable archive) {request : Request} (hmem : request ∈ requests) :
    archive.Honest request (archive.reply request) := by
  obtain ⟨base, hsplit, -⟩ := h.split
  rw [hsplit] at hmem
  obtain ⟨rfl, hsome⟩ | ⟨id, hid, rfl⟩ | ⟨rfl, -, -⟩ := Request.mem_split.1 hmem
  · have hgroup := Registry.mem_sourceGroups.2 (.inl ⟨rfl, hsome⟩)
    exact Archive.honest_reply hsome (hfirst.nodup.filter _) fun _ =>
      Nat.lt_of_succ_lt (hfirst.bounded .localSites hgroup)
  · have hgroup := Registry.mem_sourceGroups.2 (.inr ⟨id, hid, rfl⟩)
    exact Archive.honest_reply (List.cons_ne_nil _ _) (List.nodup_singleton _) fun _ =>
      Nat.lt_of_succ_lt (hfirst.bounded (.site id) hgroup)
  · exact Archive.honest_reply (List.cons_ne_nil _ _) (List.nodup_singleton _) fun hcache =>
      absurd rfl hcache

/-- A page can be answered from the archive, and settles. -/
theorem exists_over (h : Begun archive first page traffic next requests)
    (hfirst : first.Readable archive) (hc : Coherent traffic) (hcoherent : Coherent next) :
    ∃ replies after, Exchanges archive replies next after ∧ after.session.round = none := by
  let replies (call : Nat) : Reply :=
    (next.sent[call]?.map archive.reply).getD (.error .timedOut)
  have hhonest : ∀ call request, next.Latest call request →
      archive.Honest request (replies call) := by
    intro call request hlatest
    obtain ⟨index, -, hindex⟩ := h.latest_iff.1 hlatest
    have hreply : replies call = archive.reply request := by
      simp only [replies, hlatest.1, Option.map_some, Option.getD_some]
    rw [hreply]
    exact h.honest_reply hfirst (List.mem_of_getElem? hindex)
  exact ⟨replies, (h.reading hc hcoherent).exists_settled (h.apart hfirst) hhonest⟩

/-- Once a page is over, all replies to it are honest. -/
theorem honest (h : Begun archive first page traffic next requests)
    (hreading : Reading archive replies next after) (hover : after.session.round = none) :
    ∀ arrival ∈ exchange traffic.sent.length requests replies,
      archive.Honest arrival.request arrival.reply := by
  intro arrival harrival
  obtain ⟨⟨request, call⟩, hentry, rfl⟩ := List.mem_map.1 harrival
  obtain ⟨hle, hindex⟩ := List.mem_zipIdx_iff_le_and_getElem?_sub.1 hentry
  have hlatest : after.Latest call request :=
    hreading.latest_iff.2 (h.latest_iff.2 ⟨_, (Nat.add_sub_of_le hle).symm, hindex⟩)
  have happlied := hreading.settled hover call request hlatest
  have hanswered := hreading.coherent.reported call (List.mem_append_left _ happlied)
  exact hreading.heard call request hlatest hanswered

/-- The replies to a page bring its slice of each group. -/
theorem itemsOf_eq (h : Begun archive first page traffic next requests)
    (hfirst : first.Readable archive) (hreading : Reading archive replies next after)
    (hover : after.session.round = none) {group : Group} (hgroup : group ∈ first.sourceGroups) :
    itemsOf group [exchange traffic.sent.length requests replies] =
      ((archive.records group).drop (page * first.perPage)).take first.perPage := by
  obtain ⟨request, hfilter, -, -, hslice⟩ := h.exists_request hfirst hgroup
  let arrivals := exchange traffic.sent.length requests replies
  have hrequests : (arrivals.filter fun arrival => arrival.request.group == group).map
      Arrival.request = [request] := by
    rw [← hfilter, ← map_request_exchange traffic.sent.length requests replies, List.filter_map]
    rfl
  have hitems : ∀ arrival ∈ arrivals.filter fun arrival => arrival.request.group == group,
      arrival.items = archive.slice arrival.request := by
    intro arrival hmem
    obtain ⟨hmem, hof⟩ := List.mem_filter.1 hmem
    have hcache : arrival.request.group ≠ .cache := by
      rw [eq_of_beq hof]
      exact Registry.ne_cache_of_mem_sourceGroups hgroup
    obtain ⟨answer, hreply, hanswers⟩ := (h.honest hreading hover arrival hmem).answers hcache
    rw [Arrival.items, hreply]
    exact hanswers.items
  calc itemsOf group [arrivals]
      = (arrivals.filter fun arrival => arrival.request.group == group).flatMap Arrival.items := by
        rw [itemsOf, List.flatten_singleton]
    _ = ((arrivals.filter fun arrival => arrival.request.group == group).map
          Arrival.request).flatMap archive.slice := by
        rw [List.flatMap_map]
        exact List.flatMap_congr hitems
    _ = archive.slice request := by rw [hrequests, List.flatMap_singleton]
    _ = _ := hslice

end Begun

end Traffic

end CatalogSearch
