import CatalogSearch.Proofs.CommandLine.Limiting
import CatalogSearch.Proofs.Paging.Groups
import CatalogSearch.Proofs.Session.Selection
import CatalogSearch.Proofs.Session.Turns

/-!
# The pages of a run

A run tells of its rounds one after the other, each once it has settled, and sends the next one
only to tell of it.  There is one exception: a run of no pages tells of its first round and then
turns the page, if there is a next one, though it tells of no other round.
-/

namespace CatalogSearch

namespace Session

/-- A search of the session sends a round: nothing is in its way, and there is a source to ask. -/
structure Searchable (session : Session) : Prop where
  hook : session.surroundings.hook = none
  filter : session.query.filter.isEmpty = false
  pageSize : session.surroundings.pageSize ≠ 0
  real : ∃ id ∈ session.selectedSources, id ≠ Source.cacheId

variable {session after : Session} {options : SearchOptions}

/-- A search that sent a round of a session without a hook leaves it as fit for another one. -/
theorem searchable_of_sent {round : RoundId} {requests : List Request}
    (hhook : session.surroundings.hook = none) (hcount : options.countOnly = false)
    (hsent : session.start options = (.ok (.dispatched round requests), after)) :
    after.Searchable := by
  have hprepared := prepared_of_sent hsent
  obtain ⟨⟨hfilter, hsize⟩, hrequests, hne, -, -⟩ := start_eq_dispatched_iff.1 hsent
  rw [hrequests, roundRequests_of_unhooked hhook] at hne
  have hreal := Request.real_of_split_ne_nil hne
  constructor
  case hook => rwa [hprepared.surroundings]
  case filter => rwa [hprepared.query]
  case pageSize =>
    rw [hprepared.surroundings]
    intro hzero
    rw [hsize hzero] at hcount
    cases hcount
  case real =>
    obtain ⟨id, hid⟩ := List.exists_mem_of_ne_nil _ hreal
    obtain ⟨hmem, hid⟩ := List.mem_filter.1 hid
    refine ⟨id, ?_, bne_iff_ne.1 hid⟩
    rw [selectedSources, registry, hprepared.query, hprepared.surroundings]
    exact hmem

theorem Searchable.of_keeps (h : session.Searchable) (hkeeps : Keeps session after) :
    after.Searchable := by
  constructor
  · rw [hkeeps.surroundings]; exact h.hook
  · rw [hkeeps.query]; exact h.filter
  · rw [hkeeps.surroundings]; exact h.pageSize
  · rw [selectedSources, registry, hkeeps.query, hkeeps.surroundings]; exact h.real

/-- Turning the page sends the next round. -/
theorem Searchable.nextPage (h : session.Searchable) :
    ∃ (before : Session) (requests : List Request) (after : Session),
      before.surroundings = session.surroundings ∧
      before.start {} = (.ok (.dispatched (session.rounds + 1) requests), after) ∧
      session.nextPage = (.ok (.dispatched (session.rounds + 1) requests), after) := by
  let before : Session :=
    { session with
      tracker := session.tracker.advance session.selectedSources session.registry
        session.statuses }
  have hne : before.roundRequests {} ≠ [] := by
    have hhook : before.surroundings.hook = none := h.hook
    rw [roundRequests_of_unhooked hhook]
    exact Request.split_ne_nil h.real
  have hstarts : before.Starts {} := ⟨h.filter, fun hzero => absurd hzero h.pageSize⟩
  have hsent : before.start {} = (.ok (.dispatched (session.rounds + 1)
      (before.roundRequests {})), before.sendRound {} (before.roundRequests {})) :=
    start_eq_dispatched_iff.2 ⟨hstarts, rfl, hne, rfl, rfl⟩
  exact ⟨before, _, _, rfl, hsent, hsent⟩

theorem rounds_applyAll (session : Session) (arrivals : List Arrival) :
    (session.applyAll arrivals).1.rounds = session.rounds := by
  induction arrivals generalizing session with
  | nil => rfl
  | cons arrival rest ih =>
    rw [applyAll]
    cases session.round with
    | none => rfl
    | some round =>
      dsimp only
      split
      · exact (ih _).trans (rounds_apply session arrival)
      · exact ih session

end Session

namespace CommandLine

open Session

/-! ## Rounds on their way -/

/-- A session that waits for a round, and the requests of the round. -/
abbrev Underway := Session × List Request

/-- The session once a catalog answered the round and all replies were applied. -/
def settled (catalog : Request → Reply) (underway : Underway) : Session :=
  serve catalog underway.2 underway.1

/-- The round of the next page, once the one before has settled. -/
def turned (catalog : Request → Reply) (underway : Underway) : Underway :=
  sending (settled catalog underway).nextPage

/-- What a catalog replies to the requests of a round. -/
def replies (catalog : Request → Reply) (underway : Underway) : List Arrival :=
  underway.2.map fun request => ⟨request, catalog request⟩

/-- The round was sent as the one of its number, and others can be sent after it. -/
structure Runs (number : Nat) (underway : Underway) : Prop where
  sent : ∃ (before : Session) (options : SearchOptions),
    before.start options = (.ok (.dispatched number underway.2), underway.1)
  numbered : ∀ request ∈ underway.2, request.round = number
  rounds : underway.1.rounds = number
  searchable : underway.1.Searchable

variable {number : Nat} {underway : Underway} {catalog : Request → Reply}

theorem runs_of_start {session after : Session} {options : SearchOptions} {round : RoundId}
    {requests : List Request} (hhook : session.surroundings.hook = none)
    (hcount : options.countOnly = false)
    (hsent : session.start options = (.ok (.dispatched round requests), after)) :
    Runs (session.rounds + 1) (after, requests) := by
  obtain ⟨-, hrequests, -, rfl, hafter⟩ := start_eq_dispatched_iff.1 hsent
  constructor
  case sent => exact ⟨session, options, hsent⟩
  case numbered =>
    intro request hrequest
    change request ∈ requests at hrequest
    rw [hrequests] at hrequest
    exact round_of_mem_roundRequests hrequest
  case rounds =>
    rw [hafter]
    rfl
  case searchable => exact searchable_of_sent hhook hcount hsent

theorem rounds_serve (catalog : Request → Reply) (requests : List Request) (session : Session) :
    (serve catalog requests session).rounds = session.rounds := by
  have hdeliver : (requests.foldl
      (fun session request => session.deliver ⟨request, catalog request⟩) session).rounds =
        session.rounds := by
    induction requests generalizing session with
    | nil => rfl
    | cons request requests ih => exact ih _
  exact (rounds_applyAll _ _).trans hdeliver

theorem Runs.rounds_settled (h : Runs number underway) :
    (settled catalog underway).rounds = number := by
  rw [settled, rounds_serve, h.rounds]

/-- Turning the page sends the next round. -/
theorem Runs.nextPage (h : Runs number underway) (catalog : Request → Reply) :
    (settled catalog underway).nextPage =
        (.ok (.dispatched (number + 1) (turned catalog underway).2), (turned catalog underway).1) ∧
      Runs (number + 1) (turned catalog underway) := by
  have hsettled : (settled catalog underway).Searchable :=
    h.searchable.of_keeps (keeps_serve catalog underway.2 underway.1)
  obtain ⟨before, requests, after, hsame, hsent, hnext⟩ := hsettled.nextPage
  rw [h.rounds_settled] at hsent hnext
  have hturned : turned catalog underway = (after, requests) := by
    rw [turned, hnext]
    rfl
  have hhook : before.surroundings.hook = none := by
    rw [hsame]
    exact hsettled.hook
  have hruns := runs_of_start hhook rfl hsent
  have hnumber : before.rounds + 1 = number + 1 := by
    obtain ⟨-, -, -, hround, -⟩ := start_eq_dispatched_iff.1 hsent
    exact hround.symm
  rw [hturned]
  exact ⟨hnext, hnumber ▸ hruns⟩

/-- What a walk through pages reports, and the session that it leaves behind. -/
def walked (catalog : Request → Reply) (last page : Nat) (underway : Underway) :
    Nat → Report × Session
  | 0 => (([], none), underway.1)
  | left + 1 =>
    let session := settled catalog underway
    let document := pageDocument page session
    if page = last || !session.hasNextPage then (([document], none), session)
    else
      match session.nextPage with
      | (.error fault, session) => (([document], some (.search fault)), session)
      | (.ok outcome, session) =>
        let ((documents, fault), session) :=
          walked catalog last (page + 1) (session, outcome.requests) left
        ((document :: documents, fault), session)

theorem walked_of_over {last page : Nat}
    (h : page = last ∨ (settled catalog underway).hasNextPage = false) (left : Nat) :
    walked catalog last page underway (left + 1) =
      (([pageDocument page (settled catalog underway)], none), settled catalog underway) := by
  have hstop : (page = last || !(settled catalog underway).hasNextPage) = true := by
    simpa using h
  rw [walked, if_pos hstop]

theorem walked_of_more {last page : Nat} (h : Runs number underway) (hpage : page ≠ last)
    (hmore : (settled catalog underway).hasNextPage = true) (left : Nat) :
    let rest := walked catalog last (page + 1) (turned catalog underway) left
    walked catalog last page underway (left + 1) =
      ((pageDocument page (settled catalog underway) :: rest.1.1, rest.1.2), rest.2) := by
  have hgoes : ¬(page = last || !(settled catalog underway).hasNextPage) = true := by
    simp [hpage, hmore]
  rw [walked, if_neg hgoes, (h.nextPage catalog).1]
  rfl

/-- The session that has settled on a page, counted from the round on its way. -/
def settledOn (catalog : Request → Reply) (underway : Underway) (index : Nat) : Session :=
  settled catalog ((turned catalog)^[index] underway)

/-- What a walk comes to that may show some more pages and shows a number of them: none is
missing, none but the last is the last there is, and the page is not turned after it, unless it
was to go on and there is another. -/
structure Shows (catalog : Request → Reply) (page left : Nat) (underway : Underway)
    (goesOn : Prop) [Decidable goesOn] (outcome : Report × Session) (count : Nat) : Prop where
  pos : 1 ≤ count
  le : count ≤ left
  report : outcome.1 = ((List.range count).map fun index =>
    pageDocument (page + index) (settledOn catalog underway index), none)
  more : ∀ index, index + 1 < count → (settledOn catalog underway index).hasNextPage = true
  last : count < left → (settledOn catalog underway (count - 1)).hasNextPage = false
  rounds : outcome.2.rounds + 1 = underway.1.rounds + count +
    if goesOn ∧ (settledOn catalog underway (count - 1)).hasNextPage = true then 1 else 0

theorem Shows.single {page left : Nat} {goesOn : Prop} [Decidable goesOn]
    {outcome : Report × Session}
    (hreport : outcome.1 = ([pageDocument page (settled catalog underway)], none))
    (hlast : 0 < left → (settled catalog underway).hasNextPage = false)
    (hrounds : outcome.2.rounds = underway.1.rounds +
      if goesOn ∧ (settled catalog underway).hasNextPage = true then 1 else 0) :
    Shows catalog page (left + 1) underway goesOn outcome 1 where
  pos := Nat.le_refl 1
  le := Nat.succ_le_succ (Nat.zero_le left)
  report := hreport
  more := by
    intro index hindex
    omega
  last := fun hleft => hlast (Nat.lt_of_succ_lt_succ hleft)
  rounds := by
    change outcome.2.rounds + 1 = underway.1.rounds + 1 +
      if goesOn ∧ (settled catalog underway).hasNextPage = true then 1 else 0
    omega

theorem Shows.cons {page left count : Nat} {goesOn : Prop} [Decidable goesOn]
    {outcome : Report × Session} (hmore : (settled catalog underway).hasNextPage = true)
    (hturned : (turned catalog underway).1.rounds = underway.1.rounds + 1)
    (h : Shows catalog (page + 1) left (turned catalog underway) goesOn outcome count) :
    Shows catalog page (left + 1) underway goesOn
      ((pageDocument page (settled catalog underway) :: outcome.1.1, outcome.1.2), outcome.2)
      (count + 1) := by
  have hpos := h.pos
  have hlater : settledOn catalog underway (count + 1 - 1) =
      settledOn catalog (turned catalog underway) (count - 1) := by
    obtain ⟨earlier, rfl⟩ := Nat.exists_eq_add_one.2 hpos
    rfl
  constructor
  case pos => exact Nat.succ_le_succ (Nat.zero_le count)
  case le => exact Nat.succ_le_succ h.le
  case report =>
    rw [h.report, List.range_succ_eq_map, List.map_cons, List.map_map]
    simp only [Prod.mk.injEq, List.cons.injEq, and_true]
    refine ⟨rfl, List.map_congr_left fun index _ => ?_⟩
    rw [Function.comp_apply, Nat.add_succ, Nat.succ_add]
    rfl
  case more =>
    intro index hindex
    cases index with
    | zero => exact hmore
    | succ index => exact h.more index (Nat.lt_of_succ_lt_succ hindex)
  case last =>
    intro hleft
    rw [hlater]
    exact h.last (Nat.lt_of_succ_lt_succ hleft)
  case rounds =>
    rw [hlater]
    have hrounds := h.rounds
    rw [hturned] at hrounds
    dsimp only
    omega

/-- A walk sends one round after the other, as many as its session counts. -/
theorem exists_walkRounds_eq (h : Runs number underway) (catalog : Request → Reply)
    (last page left : Nat) :
    ∃ count, (walked catalog last page underway left).2.rounds + 1 = number + count ∧
      walkRounds catalog last page underway.2 underway.1 left =
        (List.range count).map fun index => ((turned catalog)^[index] underway).2 := by
  induction left generalizing number page underway with
  | zero => exact ⟨1, congrArg (· + 1) h.rounds, rfl⟩
  | succ left ih =>
    by_cases hover : page = last ∨ (settled catalog underway).hasNextPage = false
    · refine ⟨1, ?_, ?_⟩
      · rw [walked_of_over hover, h.rounds_settled]
      · have hstop : (page = last || !(settled catalog underway).hasNextPage) = true := by
          simpa using hover
        rw [walkRounds]
        exact congrArg _ (if_pos hstop)
    · obtain ⟨hpage, hmore⟩ := not_or.1 hover
      rw [Bool.not_eq_false] at hmore
      obtain ⟨count, hcount, hrounds⟩ := ih (h.nextPage catalog).2 (page + 1)
      refine ⟨count + 1, ?_, ?_⟩
      · rw [walked_of_more h hpage hmore]
        exact hcount.trans (Nat.add_right_comm number 1 count)
      · have hgoes : ¬(page = last || !(settled catalog underway).hasNextPage) = true := by
          simp [hpage, hmore]
        have hnext := (h.nextPage catalog).1
        rw [settled] at hgoes hnext
        rw [List.range_succ_eq_map, List.map_cons, List.map_map, walkRounds, if_neg hgoes, hnext]
        exact congrArg _ hrounds

/-! ## Runs -/

/-- What a run reports, and the session that it leaves behind. -/
def visited (catalog : Request → Reply) (arguments : Arguments) (session : Session) :
    Report × Session :=
  match firstSearch catalog arguments session with
  | (.error fault, session) => (([], some (.search fault)), session)
  | (.ok (.dispatched _ requests), session) =>
    let requests := if session.round.isSome then requests else []
    walked catalog arguments.pages.toNat 1 (session, requests) (max arguments.pages.toNat 1)
  | (.ok _, session) => (([], none), session)

theorem visited_of_untiered (catalog : Request → Reply) {arguments : Arguments}
    {session after : Session} {round : RoundId} {requests : List Request}
    (huntiered : arguments.tieredIds.isEmpty = true)
    (hsent : session.start arguments.limits = (.ok (.dispatched round requests), after)) :
    visited catalog arguments session =
      walked catalog arguments.pages.toNat 1 (after, requests) (max arguments.pages.toNat 1) := by
  have hround : after.round.isSome = true := by
    obtain ⟨-, -, -, -, rfl⟩ := start_eq_dispatched_iff.1 hsent
    rfl
  rw [visited, firstSearch_of_untiered huntiered, hsent]
  simp only [hround, if_true]

/-- The rounds of a run are all that it sends, also the one that it does not wait for. -/
theorem rounds_eq_of_sent (catalog : Request → Reply) {arguments : Arguments}
    {session after : Session} {round : RoundId} {requests : List Request}
    (huntiered : arguments.tieredIds.isEmpty = true) (hruns : Runs 1 (after, requests))
    (hsent : session.start arguments.limits = (.ok (.dispatched round requests), after)) :
    rounds catalog arguments session =
      (List.range (visited catalog arguments session).2.rounds).map fun index =>
        ((turned catalog)^[index] (after, requests)).2 := by
  have hround : after.round.isSome = true := by
    obtain ⟨-, -, -, -, rfl⟩ := start_eq_dispatched_iff.1 hsent
    rfl
  obtain ⟨count, hcount, hrounds⟩ := exists_walkRounds_eq hruns catalog arguments.pages.toNat 1
    (max arguments.pages.toNat 1)
  rw [Nat.add_comm 1 count, Nat.add_right_cancel_iff] at hcount
  rw [visited_of_untiered catalog huntiered hsent, hcount, rounds, if_pos huntiered, hsent,
    pageRounds, if_pos hround]
  exact hrounds

/-- A configuration of one source and of pages of two records. -/
def homeOnly : Config where
  service := ⟨"info"⟩
  catalog := ⟨"https://home", Config.defaultQueryPath, 1000, none, []⟩
  search := ⟨2, false, "home", "enterprise", false, false, []⟩
  sources := [⟨"home", "local", true⟩]

end CommandLine

end CatalogSearch
