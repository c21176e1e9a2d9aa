import CatalogSearch.Proofs.CommandLine.Rounds
import CatalogSearch.Proofs.Session.Limits

/-!
# Limited runs

A run that is limited to deleted or historic records restricts its filter to their tag.
The limit is an option of its first search and of no other: the rounds of later pages,
and those of a tiered search, ask for the filter as it stands.
-/

namespace CatalogSearch

/-- A request asks for the records of a filter: its text is read as the filter or, to the
cache, is that of the filter narrowed to some sources. -/
def Request.Asks (request : Request) (filter : Filter) : Prop :=
  if request.group = .cache then
    ∃ sources, request.cql = Cql.toText (filter.both (Request.restriction sources))
  else Cql.parse request.cql = .ok filter

theorem Request.asks_of_mem_split {base request : Request} {selected : List String}
    {registry : Registry} {tracker : PageTracker} {filter : Filter}
    (hread : Cql.parse base.cql = .ok filter) (h : request ∈ base.split selected registry tracker) :
    request.Asks filter := by
  have hcql := cql_of_mem_split h
  rw [Asks]
  split
  · rename_i hcache
    rw [if_pos hcache, narrow, hread] at hcql
    exact ⟨_, hcql⟩
  · rename_i hcache
    rw [if_neg hcache] at hcql
    rw [hcql]
    exact hread

namespace Session

/-- The session searches for a filter, and no hook changes what it sends. -/
structure SearchesFor (session : Session) (filter : Filter) : Prop where
  filter : session.query.filter = filter
  hook : session.surroundings.hook = none

variable {session : Session} {filter read : Filter}

theorem SearchesFor.of_keeps {after : Session} (h : session.SearchesFor filter)
    (hkeeps : Keeps session after) : after.SearchesFor filter where
  filter := by rw [hkeeps.query]; exact h.filter
  hook := by rw [hkeeps.surroundings]; exact h.hook

theorem SearchesFor.start (h : session.SearchesFor filter) (options : SearchOptions) :
    (session.start options).2.SearchesFor filter := by
  change (sending (session.start options)).1.SearchesFor filter
  by_cases hstarts : session.Starts options
  · have hprepared := prepared_start_of_starts hstarts
    constructor
    · rw [hprepared.query]
      exact h.filter
    · rw [hprepared.surroundings]
      exact h.hook
  · rw [start_of_not_starts hstarts]
    exact ⟨h.filter, h.hook⟩

/-- What a search sends asks for what its text is read as. -/
theorem asks_of_mem_sent {options : SearchOptions} (hhook : session.surroundings.hook = none)
    (hread : Cql.parse (Cql.toText (session.sentFilter options)) = .ok read) {request : Request}
    (h : request ∈ (sending (session.start options)).2) : request.Asks read := by
  rw [sent_start_of_starts (starts_of_mem_sent h), roundRequests_of_unhooked hhook] at h
  have hbase : Cql.parse (session.baseRequest options).cql = .ok read := hread
  exact Request.asks_of_mem_split hbase h

/-- A search without a limit asks for the filter as it stands. -/
theorem SearchesFor.asks_of_unlimited (h : session.SearchesFor filter)
    (hread : Cql.parse (Cql.toText filter) = .ok read) {options : SearchOptions}
    (htag : options.tag? = none) {request : Request}
    (hrequest : request ∈ (sending (session.start options)).2) : request.Asks read := by
  apply asks_of_mem_sent h.hook ?_ hrequest
  rw [sentFilter, htag, h.filter]
  exact hread

end Session

namespace CommandLine

open Session

variable {session : Session} {filter read : Filter} {catalog : Request → Reply}

theorem keeps_serve (catalog : Request → Reply) (requests : List Request) (session : Session) :
    Keeps session (serve catalog requests session) := by
  have hdeliver : Keeps session (requests.foldl
      (fun session request => session.deliver ⟨request, catalog request⟩) session) := by
    induction requests generalizing session with
    | nil => exact .refl session
    | cons request requests ih =>
      have hone : Keeps session (session.deliver ⟨request, catalog request⟩) := ⟨rfl, rfl, rfl⟩
      exact hone.trans (ih _)
  exact hdeliver.trans (keeps_applyAll _ _)

/-- A page that was turned asks for the filter as it stands. -/
theorem asks_of_nextPage (hread : Cql.parse (Cql.toText filter) = .ok read)
    (h : session.SearchesFor filter) {outcome : SearchOutcome} {after : Session}
    (hnext : session.nextPage = (.ok outcome, after)) :
    after.SearchesFor filter ∧ ∀ request ∈ outcome.requests, request.Asks read := by
  let staged : Session :=
    { session with
      tracker := session.tracker.advance session.selectedSources session.registry
        session.statuses }
  have hstaged : staged.SearchesFor filter := ⟨h.filter, h.hook⟩
  have hstart : staged.start {} = (.ok outcome, after) := hnext
  have hafter := hstaged.start {}
  have hasks : ∀ request ∈ (sending (staged.start {})).2, request.Asks read :=
    fun request hrequest => hstaged.asks_of_unlimited hread rfl hrequest
  rw [hstart] at hafter hasks
  exact ⟨hafter, hasks⟩

/-- A round that asks for the filter as it stands is followed by others that do. -/
theorem asks_of_mem_walkRounds (hread : Cql.parse (Cql.toText filter) = .ok read)
    {last page left : Nat} {requests : List Request} (h : session.SearchesFor filter) :
    ∀ sent ∈ (walkRounds catalog last page requests session left).tail, ∀ request ∈ sent,
      request.Asks read := by
  intro sent hsent
  induction left generalizing page requests session with
  | zero => cases hsent
  | succ left ih =>
    have hsettled := h.of_keeps (keeps_serve catalog requests session)
    rw [walkRounds, List.tail_cons] at hsent
    split at hsent
    · cases hsent
    · cases hnext : (serve catalog requests session).nextPage with
      | mk result after =>
        rw [hnext] at hsent
        cases result with
        | error fault => cases hsent
        | ok outcome =>
          obtain ⟨hafter, hasks⟩ := asks_of_nextPage hread hsettled hnext
          have hmore : sent ∈ (walkRounds catalog last (page + 1) outcome.requests after
              left).tail → ∀ request ∈ sent, request.Asks read := ih hafter
          obtain ⟨more, hrounds⟩ := exists_walkRounds_eq_cons catalog last (page + 1) left
            outcome.requests after
          dsimp only at hsent
          rw [hrounds] at hsent hmore
          obtain rfl | hsent := List.mem_cons.1 hsent
          · exact hasks
          · exact hmore hsent

/-- Of the pages of a run the first asks for what its search did, the others for the
filter as it stands. -/
theorem asks_of_mem_pageRounds (hread : Cql.parse (Cql.toText filter) = .ok read)
    {pages : Nat} {searched : Searched} (h : searched.2.SearchesFor filter) {first : Filter}
    (hfirst : ∀ request ∈ (sending searched).2, request.Asks first) {index : Nat}
    {sent : List Request} (hsent : (pageRounds catalog pages searched)[index]? = some sent) :
    ∀ request ∈ sent, request.Asks (if index = 0 then first else read) := by
  obtain ⟨result, after⟩ := searched
  match result with
  | .error fault => cases hsent
  | .ok .emptyFilter | .ok .nothingToRun | .ok .noPreviousPage => cases hsent
  | .ok (.dispatched roundId requests) =>
    rw [pageRounds] at hsent
    cases index with
    | zero =>
      obtain ⟨more, hrounds⟩ := exists_walkRounds_eq_cons catalog pages 1 (max pages 1)
        (if after.round.isSome then requests else []) after
      rw [hrounds, List.getElem?_cons_zero, Option.some.injEq] at hsent
      subst hsent
      intro request hrequest
      split at hrequest
      · exact hfirst request hrequest
      · cases hrequest
    | succ index =>
      rw [← List.getElem?_tail] at hsent
      exact asks_of_mem_walkRounds hread h sent (List.mem_of_getElem? hsent)

/-- The wider half of a tiered search asks for the filter as it stands, if the local one
did. -/
theorem asks_of_widen (hread : Cql.parse (Cql.toText filter) = .ok read)
    (h : session.SearchesFor filter) {found : SearchOutcome}
    (hfound : ∀ request ∈ found.requests, request.Asks read) (wanted : List String) :
    (session.widen wanted found).2.SearchesFor filter ∧
      ∀ request ∈ (sending ((session.widen wanted found).1.map TieredOutcome.outcome,
        (session.widen wanted found).2)).2, request.Asks read := by
  rw [widen_eq]
  split
  · exact ⟨h, hfound⟩
  · rename_i view hview
    split
    · exact ⟨⟨h.filter, h.hook⟩, hfound⟩
    · let wider : Session :=
        { session with
          view := some (settledView view)
          query := { session.query with federation := .enterprise } }
      let options : SearchOptions :=
        { seedResults := (settledView view).records, seedStatuses := session.statuses }
      have hwider : wider.SearchesFor filter := ⟨h.filter, h.hook⟩
      have hasks : ∀ request ∈ (sending (wider.start options)).2, request.Asks read :=
        fun request hrequest => hwider.asks_of_unlimited hread rfl hrequest
      have hresult : ∀ result : Except SearchFault SearchOutcome,
          (result.map fun outcome => TieredOutcome.mk true outcome).map TieredOutcome.outcome =
            result := by
        rintro (fault | outcome) <;> rfl
      rw [hresult]
      exact ⟨hwider.start options, hasks⟩

theorem asks_of_startLocal (hread : Cql.parse (Cql.toText filter) = .ok read)
    (h : session.SearchesFor filter) :
    session.startLocal.2.SearchesFor filter ∧
      ∀ request ∈ (sending session.startLocal).2, request.Asks read := by
  let narrowed : Session :=
    { session with query := { session.query with federation := .localCatalog } }
  have hnarrowed : narrowed.SearchesFor filter := ⟨h.filter, h.hook⟩
  constructor
  · exact hnarrowed.start {}
  · intro request hrequest
    exact hnarrowed.asks_of_unlimited hread rfl hrequest

theorem asks_of_firstSearch (hread : Cql.parse (Cql.toText filter) = .ok read)
    (h : session.SearchesFor filter) {arguments : Arguments}
    (htiered : ¬arguments.tieredIds.isEmpty = true) (catalog : Request → Reply) :
    (firstSearch catalog arguments session).2.SearchesFor filter ∧
      ∀ request ∈ (sending (firstSearch catalog arguments session)).2, request.Asks read := by
  obtain ⟨hafter, hasks⟩ := asks_of_startLocal hread h
  rw [firstSearch, if_neg htiered]
  cases hlocal : session.startLocal with
  | mk result after =>
    rw [hlocal] at hafter hasks
    cases result with
    | error fault => exact ⟨hafter, hasks⟩
    | ok outcome =>
      cases outcome with
      | dispatched roundId requests =>
        have hserved := hafter.of_keeps (keeps_serve catalog requests after)
        have hfound : ∀ request ∈ (SearchOutcome.dispatched roundId requests).requests,
            request.Asks read := hasks
        exact asks_of_widen hread hserved hfound arguments.tieredIds
      | _ => exact ⟨hafter, hasks⟩

/-- A limited run restricts its first round to the tag, unless the search is tiered, and
no other one: all later rounds ask for the filter as it stands. -/
theorem limit_covers_first_round {arguments : Arguments} {tag : String}
    (htag : arguments.limits.tag? = some tag) (hhook : session.surroundings.hook = none)
    (hempty : session.query.filter.isEmpty = false)
    (hleaves : ∀ leaf ∈ session.query.filter.leaves, leaf.Expressible)
    (hnesting : session.query.filter.normalForm.nesting < Cql.nestingLimit)
    (catalog : Request → Reply) (index : Nat) {sent : List Request}
    (hsent : (rounds catalog arguments session)[index]? = some sent) :
    ∀ request ∈ sent, request.Asks
      (if index = 0 ∧ arguments.tieredIds.isEmpty = true then
        .and [session.query.filter.normalForm, .carries tag]
      else session.query.filter.normalForm) := by
  have h : session.SearchesFor session.query.filter := ⟨rfl, hhook⟩
  have hread := Cql.parse_toText hleaves (Nat.le_of_lt hnesting)
  have hlimited : ∀ request ∈ (sending (session.start arguments.limits)).2,
      request.Asks (.and [session.query.filter.normalForm, .carries tag]) := by
    intro request hrequest
    apply asks_of_mem_sent hhook ?_ hrequest
    rw [sentFilter_of_tag htag]
    exact Cql.parse_tagged hempty hleaves hnesting tag
  rw [rounds] at hsent
  cases htiered : arguments.tieredIds.isEmpty with
  | true =>
    rw [if_pos htiered] at hsent
    simpa using asks_of_mem_pageRounds hread (h.start arguments.limits) hlimited hsent
  | false =>
    have htiered' : ¬arguments.tieredIds.isEmpty = true := by simp [htiered]
    rw [if_neg htiered'] at hsent
    rw [if_neg (by simp)]
    cases index with
    | zero =>
      rw [List.getElem?_cons_zero, Option.some.injEq] at hsent
      subst hsent
      exact (asks_of_startLocal hread h).2
    | succ index =>
      obtain ⟨hafter, hasks⟩ := asks_of_firstSearch hread h htiered' catalog
      simpa using asks_of_mem_pageRounds hread hafter hasks hsent

/-- A run for the deleted records among all, two pages of two records each at most. -/
def deletedRecords : Arguments :=
  { config := "config", cql := none, federation := none, sources := [], pages := 2,
    tieredIds := [], deleted := true, historic := false }

/-- A session of it in which the local catalog is asked only. -/
def twoByTwo : Session :=
  .create (.create "query" queryTitle) ⟨.create "home" false, 2, 1000, none⟩

/-- A catalog that has three records of every search. -/
def threeRecords (request : Request) : Reply :=
  let count : UInt64 := if request.start = 1 then 2 else 1
  .ok ⟨[], [⟨"home", some 3, some count, none, none, []⟩]⟩

theorem first_page_of_deletedRecords :
    ∃ sent, (rounds threeRecords deletedRecords twoByTwo)[0]? = some sent ∧
      ∃ request ∈ sent, request.Asks (.and [.anyText, .carries "deleted"]) := by
  have hleaves : ∀ leaf ∈ twoByTwo.query.filter.leaves, leaf.Expressible := by
    simp only [twoByTwo, Session.create, Query.create, Filter.anyText, Filter.matching,
      Filter.leaves, List.forall_mem_singleton]
    exact ⟨trivial, fun _ => ⟨_, rfl⟩⟩
  have hsent : ∃ sent, (rounds threeRecords deletedRecords twoByTwo)[0]? = some sent ∧
      sent ≠ [] := by decide +kernel
  obtain ⟨sent, hsent, hsome⟩ := hsent
  obtain ⟨request, hrequest⟩ := List.exists_mem_of_ne_nil _ hsome
  have hasks := limit_covers_first_round rfl rfl rfl hleaves (by decide) threeRecords 0 hsent
    request hrequest
  exact ⟨sent, hsent, request, hrequest, hasks⟩

/-- The second page of a run for deleted records asks for all records. -/
theorem second_page_is_unlimited :
    Arguments.read ["--config", "config", "--deleted", "--pages", "2"] = .ok deletedRecords ∧
      (∃ request ∈ ((rounds threeRecords deletedRecords twoByTwo)[1]?).getD [],
        request.group ≠ .cache ∧ Cql.parse request.cql = .ok .anyText) ∧
      ∀ filter, Filter.anyText ≠ .and [filter, .carries "deleted"] := by
  have hread : Arguments.read ["--config", "config", "--deleted", "--pages", "2"] =
      .ok deletedRecords := by decide +kernel
  have hsent : ∃ request ∈ ((rounds threeRecords deletedRecords twoByTwo)[1]?).getD [],
      request.group ≠ .cache ∧ Cql.parse request.cql = .ok .anyText := by decide +kernel
  exact ⟨hread, hsent, nofun⟩

end CommandLine

end CatalogSearch
