import CatalogSearch.CommandLine.Execution
import CatalogSearch.Proofs.Session.Sending
import Mathlib.Data.List.Basic

/-!
# The rounds of a run

What a run of the command line sends, round by round.  A run of no pages may send one
round more than it waits for.  Catalogs that answer the requests of all others alike make
the same report.
-/

namespace CatalogSearch.CommandLine

open Session

/-- The options of the first search of a run. -/
def Arguments.limits (arguments : Arguments) : SearchOptions :=
  { limitToDeleted := arguments.deleted, limitToHistoric := arguments.historic }

/-- The rounds of a walk through pages, the first of which was sent already.  A walk that
may show no more pages waits for none of them. -/
def walkRounds (catalog : Request → Reply) (last page : Nat) (requests : List Request)
    (session : Session) : Nat → List (List Request)
  | 0 => [requests]
  | left + 1 =>
    let settled := serve catalog requests session
    requests ::
      if page = last || !settled.hasNextPage then []
      else
        match settled.nextPage with
        | (.error _, _) => []
        | (.ok outcome, session) =>
          walkRounds catalog last (page + 1) outcome.requests session left

/-- The rounds of the pages of a run, once its first search came to something. -/
def pageRounds (catalog : Request → Reply) (pages : Nat) : Searched → List (List Request)
  | (.ok (.dispatched _ requests), session) =>
    walkRounds catalog pages 1 (if session.round.isSome then requests else []) session
      (max pages 1)
  | _ => []

/-- The rounds of a run.  Those of a tiered search are the local round and, if it was
widened, the one of every source. -/
def rounds (catalog : Request → Reply) (arguments : Arguments) (session : Session) :
    List (List Request) :=
  if arguments.tieredIds.isEmpty then
    pageRounds catalog arguments.pages.toNat (session.start arguments.limits)
  else
    (sending session.startLocal).2 ::
      pageRounds catalog arguments.pages.toNat (firstSearch catalog arguments session)

/-- The rounds of a run that it waits for. -/
def awaitedRounds (catalog : Request → Reply) (arguments : Arguments) (session : Session) :
    List (List Request) :=
  (rounds catalog arguments session).take
    (max arguments.pages.toNat 1 + if arguments.tieredIds.isEmpty then 0 else 1)

theorem exists_walkRounds_eq_cons (catalog : Request → Reply) (last page left : Nat)
    (requests : List Request) (session : Session) :
    ∃ more, walkRounds catalog last page requests session left = requests :: more := by
  cases left with
  | zero => exact ⟨[], rfl⟩
  | succ left => exact ⟨_, rfl⟩

/-- Catalogs that answer some requests alike serve them alike. -/
theorem serve_congr {catalog other : Request → Reply} {requests : List Request}
    (h : ∀ request ∈ requests, catalog request = other request) (session : Session) :
    serve catalog requests session = serve other requests session := by
  have hdeliver : requests.foldl
      (fun session request => session.deliver ⟨request, catalog request⟩) session =
        requests.foldl (fun session request => session.deliver ⟨request, other request⟩)
          session := by
    apply List.foldl_ext
    intro session request hrequest
    rw [h request hrequest]
  rw [serve, serve, hdeliver]

/-- What a walk reports depends on the answers to the rounds that it waits for only. -/
theorem walk_congr {catalog other : Request → Reply} {last page left : Nat}
    {requests : List Request} {session : Session}
    (h : ∀ sent ∈ (walkRounds catalog last page requests session left).take left,
      ∀ request ∈ sent, catalog request = other request) :
    walk catalog last page requests session left = walk other last page requests session left := by
  induction left generalizing page requests session with
  | zero => rfl
  | succ left ih =>
    rw [walkRounds, List.take_succ_cons] at h
    have hserve : serve catalog requests session = serve other requests session :=
      serve_congr (h requests List.mem_cons_self) session
    rw [walk, walk, ← hserve]
    split
    · rfl
    · rename_i hmore
      rw [if_neg hmore] at h
      cases hnext : (serve catalog requests session).nextPage with
      | mk outcome after =>
        cases outcome with
        | error fault => rfl
        | ok outcome =>
          rw [hnext] at h
          have hrest : walk catalog last (page + 1) outcome.requests after left =
              walk other last (page + 1) outcome.requests after left :=
            ih fun sent hsent => h sent (List.mem_cons_of_mem _ hsent)
          simp only [hrest]

theorem firstSearch_of_untiered {arguments : Arguments} (h : arguments.tieredIds.isEmpty = true)
    (catalog : Request → Reply) (session : Session) :
    firstSearch catalog arguments session = session.start arguments.limits := by
  rw [firstSearch, if_pos h]
  rfl

theorem firstSearch_congr {catalog other : Request → Reply} {arguments : Arguments}
    {session : Session} (htiered : ¬arguments.tieredIds.isEmpty = true)
    (h : ∀ request ∈ (sending session.startLocal).2, catalog request = other request) :
    firstSearch catalog arguments session = firstSearch other arguments session := by
  rw [firstSearch, firstSearch, if_neg htiered, if_neg htiered]
  cases hlocal : session.startLocal with
  | mk outcome after =>
    rw [hlocal] at h
    cases outcome with
    | error fault => rfl
    | ok outcome =>
      cases outcome with
      | dispatched round requests =>
        have hserve : serve catalog requests after = serve other requests after :=
          serve_congr h after
        simp only [hserve]
      | _ => rfl

/-- What a run reports depends on the answers to the rounds that it waits for only: catalogs
that answer their requests alike make the same report. -/
theorem search_congr {catalog other : Request → Reply} {arguments : Arguments}
    {session : Session}
    (h : ∀ sent ∈ awaitedRounds catalog arguments session, ∀ request ∈ sent,
      catalog request = other request) :
    search catalog arguments session = search other arguments session := by
  have hfirst : firstSearch catalog arguments session = firstSearch other arguments session ∧
      ∀ sent ∈ (pageRounds catalog arguments.pages.toNat
          (firstSearch catalog arguments session)).take (max arguments.pages.toNat 1),
        ∀ request ∈ sent, catalog request = other request := by
    cases htiered : arguments.tieredIds.isEmpty with
    | true =>
      rw [awaitedRounds, rounds, if_pos htiered, if_pos htiered] at h
      rw [firstSearch_of_untiered htiered, firstSearch_of_untiered htiered]
      exact ⟨rfl, h⟩
    | false =>
      have htiered' : ¬arguments.tieredIds.isEmpty = true := by simp [htiered]
      rw [awaitedRounds, rounds, if_neg htiered', if_neg htiered', List.take_succ_cons] at h
      exact ⟨firstSearch_congr htiered' (h _ List.mem_cons_self),
        fun sent hsent => h sent (List.mem_cons_of_mem _ hsent)⟩
  obtain ⟨hsame, hpages⟩ := hfirst
  rw [search, search, ← hsame]
  cases hsearched : firstSearch catalog arguments session with
  | mk outcome after =>
    rw [hsearched] at hpages
    cases outcome with
    | error fault => rfl
    | ok outcome =>
      cases outcome with
      | dispatched round requests => exact walk_congr hpages
      | _ => rfl

end CatalogSearch.CommandLine
