import CatalogSearch.Proofs.Paging.Exactness

/-!
# Paging that gives up

The checked functions of paging give up where a sum passes a word.  What they come to is exact,
and it is also what the others compute.  Which sums they form, and in which order, is told in
numbers: none of them passes a word as long as hits, counts and offsets keep to half of it.
-/

namespace CatalogSearch

namespace Word

/-- The order in which words are summed up does not decide whether their sum fits. -/
theorem sum?_eq (words : List UInt64) : sum? words = ofNat? (words.map UInt64.toNat).sum := by
  have hfrom (start : UInt64) :
      words.foldlM add? start = ofNat? (start.toNat + (words.map UInt64.toNat).sum) := by
    induction words generalizing start with
    | nil => exact (ofNat?_toNat start).symm
    | cons word rest ih =>
      rw [List.foldlM_cons, List.map_cons, List.sum_cons, ← Nat.add_assoc, ← ofNat?_bind_add]
      exact congrArg (Option.bind _) (funext ih)
  rw [sum?, hfrom]
  exact congrArg ofNat? (Nat.zero_add _)

end Word

namespace StatusBoard

theorem sumHits?_eq (statuses : List Status) :
    sumHits? statuses = Word.ofNat? (knownHits statuses) := by
  rw [sumHits?, Word.sum?_eq, knownHits_eq]

theorem totalHits?_eq (board : StatusBoard) :
    board.totalHits? = Word.ofNat? (knownHits board.real) := sumHits?_eq _

theorem sumCounts?_eq (statuses : List Status) :
    Word.sum? (statuses.map Status.count) = Word.ofNat? (returned statuses) := by
  rw [Word.sum?_eq, List.map_map]
  rfl

end StatusBoard

open StatusBoard

namespace PageTracker

variable {tracker : PageTracker} {registry : Registry} {board : StatusBoard} {cap : UInt64}
  {offsets next : Offsets} {status : Status} {more : Bool}

/-! ## Turning the page -/

theorem localCap?_eq_some_iff :
    localCap? registry board = some cap ↔
      knownHits (localStatuses registry board) + 1 < 2 ^ 64 ∧ cap = localCap registry board := by
  have hcap : localCap? registry board =
      Word.ofNat? (knownHits (localStatuses registry board) + 1) := by
    rw [localCap?, sumHits?_eq]
    exact Word.ofNat?_bind_add _ 1
  rw [hcap, Word.ofNat?_eq_some_iff]
  constructor
  · intro hsum
    have hfits : knownHits (localStatuses registry board) + 1 < 2 ^ 64 := hsum ▸ cap.toNat_lt
    exact ⟨hfits, UInt64.toNat_inj.1 (hsum.trans (toNat_localCap hfits).symm)⟩
  · rintro ⟨hfits, rfl⟩
    exact toNat_localCap hfits

theorem siteCap?_eq_some_iff :
    siteCap? status = some cap ↔
      (status.hits.getD 0).toNat + 1 < 2 ^ 64 ∧ cap = (status.hits.map (· + 1)).getD 1 := by
  unfold siteCap?
  split
  · rename_i hits hhits
    rw [hhits]
    exact Word.add?_eq_some_iff
  · rename_i hhits
    rw [hhits, Option.some.injEq, eq_comm]
    exact (and_iff_right (by decide)).symm

theorem move?_eq_some_iff {key : String} {count : UInt64} :
    move? offsets key count cap = some next ↔
      (offsets.get key).toNat + count.toNat < 2 ^ 64 ∧
        next = offsets.set key (min (offsets.get key + count) cap) := by
  unfold move?
  constructor
  · intro h
    obtain ⟨moved, hmoved, h⟩ := Option.bind_eq_some_iff.1 h
    obtain ⟨hfits, rfl⟩ := Word.add?_eq_some_iff.1 hmoved
    exact ⟨hfits, (Option.some.inj h).symm⟩
  · rintro ⟨hfits, rfl⟩
    rw [Word.add?_eq_some_iff.2 ⟨hfits, rfl⟩]
    rfl

/-- No sum that a status adds to an offset passes a word. -/
def MovesInWords (registry : Registry) (offset : String → Nat) (status : Status) : Prop :=
  status.id ≠ Source.cacheId →
    (registry.isFederated status.id = true → (status.hits.getD 0).toNat + 1 < 2 ^ 64) ∧
      offset (registry.offsetKey status.id) + status.count.toNat < 2 ^ 64

theorem step?_eq_some_iff :
    step? registry cap offsets status = some next ↔
      MovesInWords registry (fun key => (offsets.get key).toNat) status ∧
        next = step registry cap offsets status := by
  unfold MovesInWords
  by_cases hcache : status.id = Source.cacheId
  · rw [step?, if_pos hcache, step, if_pos hcache, Option.some.injEq, eq_comm]
    exact (and_iff_right fun h => absurd hcache h).symm
  · rw [step?, if_neg hcache, step, if_neg hcache, Registry.offsetKey,
      Registry.isFederated_eq_not_isLocal registry hcache]
    cases hlocal : registry.isLocal status.id with
    | true =>
      rw [if_pos rfl, if_pos rfl, if_pos rfl, move?_eq_some_iff]
      refine and_congr_left fun _ => ⟨fun hfits _ => ⟨?_, hfits⟩, fun h => (h hcache).2⟩
      exact fun hsite => absurd hsite Bool.false_ne_true
    | false =>
      rw [if_neg Bool.false_ne_true, if_neg Bool.false_ne_true, if_neg Bool.false_ne_true]
      constructor
      · intro h
        obtain ⟨siteCap, hcap, h⟩ := Option.bind_eq_some_iff.1 h
        obtain ⟨hhits, rfl⟩ := siteCap?_eq_some_iff.1 hcap
        obtain ⟨hfits, rfl⟩ := move?_eq_some_iff.1 h
        exact ⟨fun _ => ⟨fun _ => hhits, hfits⟩, rfl⟩
      · rintro ⟨hfits, rfl⟩
        obtain ⟨hhits, hsum⟩ := hfits hcache
        rw [siteCap?_eq_some_iff.2 ⟨hhits rfl, rfl⟩]
        exact move?_eq_some_iff.2 ⟨hsum, rfl⟩

theorem foldl_step_of_foldlM_step? {statuses : List Status}
    (h : statuses.foldlM (step? registry cap) offsets = some next) :
    statuses.foldl (step registry cap) offsets = next := by
  induction statuses generalizing offsets with
  | nil => exact Option.some.inj h
  | cons status rest ih =>
    rw [List.foldlM_cons] at h
    obtain ⟨moved, hmoved, h⟩ := Option.bind_eq_some_iff.1 h
    obtain ⟨-, rfl⟩ := step?_eq_some_iff.1 hmoved
    exact ih h

/-- Where turning the page does not give up, it comes to the same in words that wrap around. -/
theorem advance_eq_of_advance? {selected : List String} {staged : PageTracker}
    (h : tracker.advance? selected registry board = some staged) :
    tracker.advance selected registry board = staged := by
  obtain ⟨next, hnext, h⟩ := Option.bind_eq_some_iff.1 h
  obtain ⟨cap, hcap, hnext⟩ := Option.bind_eq_some_iff.1 hnext
  obtain ⟨-, rfl⟩ := localCap?_eq_some_iff.1 hcap
  cases h
  rw [advance, following, foldl_step_of_foldlM_step? hnext]

/-- Where a group reads on after some statuses of a board. -/
def exactAfter (tracker : PageTracker) (registry : Registry) (board : StatusBoard)
    (before : List Status) (key : String) : Nat :=
  exactOffset registry board (tracker.startOf key).toNat (sharing registry key before)

/-- No sum passes a word that some statuses of a board add to offsets, one status after the
other. -/
def MoveInWords (tracker : PageTracker) (registry : Registry) (board : StatusBoard)
    (statuses : List Status) : Prop :=
  ∀ before status, before ++ [status] <+: statuses →
    MovesInWords registry (tracker.exactAfter registry board before) status

theorem moveInWords_append_singleton {front : List Status} :
    tracker.MoveInWords registry board (front ++ [status]) ↔
      tracker.MoveInWords registry board front ∧
        MovesInWords registry (tracker.exactAfter registry board front) status := by
  constructor
  · intro h
    exact ⟨fun before other hbefore => h before other (hbefore.trans (List.prefix_append _ _)),
      h front status List.prefix_rfl⟩
  · rintro ⟨hfront, hlast⟩ before other hbefore
    obtain heq | hbefore := List.prefix_concat_iff.1 hbefore
    · obtain ⟨rfl, hother⟩ := List.append_inj' heq rfl
      cases hother
      exact hlast
    · exact hfront before other hbefore

/-- No sum that turning the page forms passes a word. -/
structure TurnsInWords (tracker : PageTracker) (registry : Registry) (board : StatusBoard) :
    Prop where
  localHits : knownHits (localStatuses registry board) + 1 < 2 ^ 64
  moves : tracker.MoveInWords registry board board

/-- After some statuses each group reads on where it should, if no sum on the way passes a
word. -/
theorem toNat_get_foldl_step (hsorted : tracker.current.Sorted)
    (hpos : ∀ key, 1 ≤ (tracker.startOf key).toNat) (selected : List String)
    (hlocalHits : knownHits (localStatuses registry board) + 1 < 2 ^ 64) {front : List Status}
    (hfront : tracker.MoveInWords registry board front) (key : String) :
    ((front.foldl (step registry (localCap registry board))
      (tracker.baseline selected registry)).get key).toNat =
        tracker.exactAfter registry board front key := by
  induction front using List.reverseRecOn with
  | nil =>
    rw [List.foldl_nil, get_baseline hsorted, UInt64.toNat_max]
    exact Nat.max_eq_left (hpos key)
  | append_singleton front status ih =>
    obtain ⟨hfront, hstatus⟩ := moveInWords_append_singleton.1 hfront
    have hoffset := ih hfront
    rw [List.foldl_append, List.foldl_cons, List.foldl_nil, exactAfter, sharing,
      List.filter_append]
    by_cases hshares : status.id ≠ Source.cacheId ∧ registry.offsetKey status.id = key
    · obtain ⟨hcache, rfl⟩ := hshares
      obtain ⟨hsite, hsum⟩ := hstatus hcache
      have hcap := toNat_capOf hlocalHits hsite hcache
      have hone : 1 ≤ tracker.exactAfter registry board front (registry.offsetKey status.id) :=
        one_le_exactOffset registry board (hpos _) _
      rw [← hoffset] at hsum hone
      rw [List.filter_cons_of_pos (by simp [hcache]), List.filter_nil, exactOffset_append,
        step_eq hcache, Offsets.get_set_self]
      exact (toNat_onward hcap hone hsum).trans (by rw [hoffset]; rfl)
    · rw [List.filter_cons_of_neg (by simpa using hshares), List.filter_nil, List.append_nil,
        get_step_of_other, hoffset]
      · rfl
      · rwa [not_and_or, not_not] at hshares

theorem foldlM_step?_eq_some_iff (hsorted : tracker.current.Sorted)
    (hpos : ∀ key, 1 ≤ (tracker.startOf key).toNat) (selected : List String)
    (hlocalHits : knownHits (localStatuses registry board) + 1 < 2 ^ 64) {front : List Status} :
    front.foldlM (step? registry (localCap registry board))
        (tracker.baseline selected registry) = some next ↔
      tracker.MoveInWords registry board front ∧
        next = front.foldl (step registry (localCap registry board))
          (tracker.baseline selected registry) := by
  induction front using List.reverseRecOn generalizing next with
  | nil =>
    have hnone : tracker.MoveInWords registry board [] := fun before status hbefore =>
      absurd (List.prefix_nil.1 hbefore) (by simp)
    rw [List.foldlM_nil, List.foldl_nil, and_iff_right hnone]
    exact Option.some_inj.trans eq_comm
  | append_singleton front status ih =>
    have hexact (hfront : tracker.MoveInWords registry board front) :=
      funext (toNat_get_foldl_step hsorted hpos selected hlocalHits hfront)
    rw [List.foldlM_append, List.foldl_append, moveInWords_append_singleton]
    constructor
    · intro h
      obtain ⟨moved, hmoved, h⟩ := Option.bind_eq_some_iff.1 h
      obtain ⟨last, hlast, h⟩ := Option.bind_eq_some_iff.1 h
      cases h
      obtain ⟨hfront, rfl⟩ := ih.1 hmoved
      obtain ⟨hstatus, rfl⟩ := step?_eq_some_iff.1 hlast
      rw [hexact hfront] at hstatus
      exact ⟨⟨hfront, hstatus⟩, rfl⟩
    · rintro ⟨⟨hfront, hstatus⟩, rfl⟩
      rw [← hexact hfront] at hstatus
      refine Option.bind_eq_some_iff.2 ⟨_, ih.2 ⟨hfront, rfl⟩, ?_⟩
      exact Option.bind_eq_some_iff.2 ⟨_, step?_eq_some_iff.2 ⟨hstatus, rfl⟩, rfl⟩

/-- Turning the page gives up just where a sum passes a word. -/
theorem following?_eq_some_iff (hsorted : tracker.current.Sorted)
    (hpos : ∀ key, 1 ≤ (tracker.startOf key).toNat) (selected : List String) :
    tracker.following? selected registry board = some next ↔
      tracker.TurnsInWords registry board ∧ next = tracker.following selected registry board := by
  constructor
  · intro h
    obtain ⟨cap, hcap, h⟩ := Option.bind_eq_some_iff.1 h
    obtain ⟨hlocalHits, rfl⟩ := localCap?_eq_some_iff.1 hcap
    obtain ⟨hmoves, rfl⟩ := (foldlM_step?_eq_some_iff hsorted hpos selected hlocalHits).1 h
    exact ⟨⟨hlocalHits, hmoves⟩, rfl⟩
  · rintro ⟨⟨hlocalHits, hmoves⟩, rfl⟩
    rw [following?, localCap?_eq_some_iff.2 ⟨hlocalHits, rfl⟩]
    exact (foldlM_step?_eq_some_iff hsorted hpos selected hlocalHits).2 ⟨hmoves, rfl⟩

theorem advance?_eq_some_iff (hsorted : tracker.current.Sorted)
    (hpos : ∀ key, 1 ≤ (tracker.startOf key).toNat) (selected : List String)
    {staged : PageTracker} :
    tracker.advance? selected registry board = some staged ↔
      tracker.TurnsInWords registry board ∧ staged = tracker.advance selected registry board := by
  constructor
  · intro h
    obtain ⟨next, hnext, h⟩ := Option.bind_eq_some_iff.1 h
    obtain ⟨hturns, rfl⟩ := (following?_eq_some_iff hsorted hpos selected).1 hnext
    exact ⟨hturns, (Option.some.inj h).symm⟩
  · rintro ⟨hturns, rfl⟩
    rw [advance?, (following?_eq_some_iff hsorted hpos selected).2 ⟨hturns, rfl⟩]
    rfl

/-- Each group reads on where it should. -/
theorem TurnsInWords.toNat_get_following (h : tracker.TurnsInWords registry board)
    (hsorted : tracker.current.Sorted) (hpos : ∀ key, 1 ≤ (tracker.startOf key).toNat)
    (selected : List String) (key : String) :
    ((tracker.following selected registry board).get key).toNat =
      exactOffset registry board (tracker.startOf key).toNat (board.sharing registry key) :=
  toNat_get_foldl_step hsorted hpos selected h.localHits h.moves key

/-! ## Asking for a next page -/

theorem siteHasNext?_eq_some_iff (hpos : 1 ≤ (tracker.startOf status.id).toNat) :
    tracker.siteHasNext? status = some more ↔
      (status.hits.isSome = true →
        status.count.toNat + (tracker.startOf status.id).toNat < 2 ^ 64) ∧
        (more = true ↔ tracker.SiteNext status) := by
  unfold siteHasNext? SiteNext
  split
  · rename_i hits hhits
    simp only [hhits, Option.getD_some, Option.isSome_some, forall_true_left]
    constructor
    · intro h
      obtain ⟨last, hlast, h⟩ := Option.bind_eq_some_iff.1 h
      obtain ⟨hfits, rfl⟩ := Word.add?_eq_some_iff.1 hlast
      rw [← Option.some.inj h, decide_eq_true_iff, UInt64.le_iff_toNat_le, UInt64.toNat_add,
        Nat.mod_eq_of_lt hfits]
      exact ⟨hfits, Iff.rfl⟩
    · rintro ⟨hfits, hmore⟩
      rw [startOf] at hfits hmore
      rw [Word.add?_eq_some_iff.2 ⟨hfits, rfl⟩]
      refine congrArg some (Bool.eq_iff_iff.2 ?_)
      rw [hmore, decide_eq_true_iff, UInt64.le_iff_toNat_le, UInt64.toNat_add,
        Nat.mod_eq_of_lt hfits]
  · rename_i hhits
    have hnone : ¬status.count.toNat + (tracker.startOf status.id).toNat ≤
        ((none : Option UInt64).getD 0).toNat := by
      have hzero : ((none : Option UInt64).getD 0).toNat = 0 := rfl
      omega
    rw [hhits, iff_false_right hnone, Bool.not_eq_true, Option.some.injEq, eq_comm]
    exact (and_iff_right fun hsome => absurd hsome Bool.false_ne_true).symm

/-- No sum passes a word that is formed to look at some sites, one after the other up to the
first that has hits past what was read. -/
def LooksInWords (tracker : PageTracker) (sites : List Status) : Prop :=
  ∀ before status, before ++ [status] <+: sites →
    (∀ earlier ∈ before, ¬tracker.SiteNext earlier) → status.hits.isSome = true →
      status.count.toNat + (tracker.startOf status.id).toNat < 2 ^ 64

theorem looksInWords_cons {rest : List Status} :
    tracker.LooksInWords (status :: rest) ↔
      (status.hits.isSome = true →
        status.count.toNat + (tracker.startOf status.id).toNat < 2 ^ 64) ∧
        (¬tracker.SiteNext status → tracker.LooksInWords rest) := by
  constructor
  · intro h
    refine ⟨h [] status (List.prefix_append [status] rest) nofun, ?_⟩
    intro hread before other hbefore hearlier
    refine h (status :: before) other (List.cons_prefix_cons.2 ⟨rfl, hbefore⟩) ?_
    exact List.forall_mem_cons.2 ⟨hread, hearlier⟩
  · rintro ⟨hfirst, hrest⟩ before other hbefore hearlier
    cases before with
    | nil =>
      cases (List.cons_prefix_cons.1 hbefore).1
      exact hfirst
    | cons first before =>
      obtain ⟨rfl, hbefore'⟩ := List.cons_prefix_cons.1 hbefore
      obtain ⟨hread, hearlier'⟩ := List.forall_mem_cons.1 hearlier
      exact hrest hread before other hbefore' hearlier'

theorem anyM_siteHasNext?_eq_some_iff (hpos : ∀ key, 1 ≤ (tracker.startOf key).toNat)
    {sites : List Status} :
    sites.anyM tracker.siteHasNext? = some more ↔
      tracker.LooksInWords sites ∧ (more = true ↔ ∃ status ∈ sites, tracker.SiteNext status) := by
  induction sites with
  | nil =>
    have hnone : tracker.LooksInWords [] := fun before status hbefore =>
      absurd (List.prefix_nil.1 hbefore) (by simp)
    rw [List.anyM_nil, and_iff_right hnone]
    cases more <;> simp
  | cons status rest ih =>
    rw [looksInWords_cons, List.exists_mem_cons_iff, List.anyM_cons]
    have hlook (found : Bool) : tracker.siteHasNext? status = some found ↔ _ :=
      siteHasNext?_eq_some_iff (hpos status.id)
    by_cases hfits : status.hits.isSome = true →
        status.count.toNat + (tracker.startOf status.id).toNat < 2 ^ 64
    · rw [and_iff_right hfits]
      by_cases hnext : tracker.SiteNext status
      · rw [(hlook true).2 ⟨hfits, iff_of_true rfl hnext⟩]
        change some true = some more ↔ _
        simp only [hnext, not_true_eq_false, false_imp_iff, true_or, true_and, iff_true]
        exact Option.some_inj.trans eq_comm
      · rw [(hlook false).2 ⟨hfits, iff_of_false Bool.false_ne_true hnext⟩]
        simp only [hnext, not_false_eq_true, forall_true_left, false_or]
        exact ih
    · have hnone : tracker.siteHasNext? status = none :=
        Option.eq_none_iff_forall_ne_some.2 fun found hfound => hfits ((hlook found).1 hfound).1
      rw [hnone]
      exact ⟨nofun, fun h => absurd h.1.1 hfits⟩

/-- No sum that asking for a next page forms passes a word.  Sites are looked at only if no
local site has hits past what was read. -/
structure TellsInWords (tracker : PageTracker) (registry : Registry) (board : StatusBoard) :
    Prop where
  localHits : knownHits (localStatuses registry board) < 2 ^ 64
  localCounts : returned (localStatuses registry board) + (tracker.startOf localKey).toNat < 2 ^ 64
  sites : ¬tracker.LocalNext registry board → tracker.LooksInWords (siteStatuses registry board)

theorem exactNext_iff :
    tracker.ExactNext registry board ↔ tracker.LocalNext registry board ∨
      ∃ status ∈ siteStatuses registry board, tracker.SiteNext status := by
  simp only [ExactNext, siteStatuses, List.mem_filter, and_assoc]

/-- Asking for a next page gives up just where a sum passes a word, and is right elsewhere. -/
theorem hasNext?_eq_some_iff (hpos : ∀ key, 1 ≤ (tracker.startOf key).toNat) :
    tracker.hasNext? registry board = some more ↔
      tracker.TellsInWords registry board ∧
        (more = true ↔ tracker.ExactNext registry board) := by
  have hlook {hits last : UInt64} (hhits : hits.toNat = knownHits (localStatuses registry board))
      (hlast : last.toNat =
        returned (localStatuses registry board) + (tracker.startOf localKey).toNat) :
      (if last ≤ hits then some true
        else (siteStatuses registry board).anyM tracker.siteHasNext?) = some more ↔
        (¬tracker.LocalNext registry board →
          tracker.LooksInWords (siteStatuses registry board)) ∧
          (more = true ↔ tracker.ExactNext registry board) := by
    have hlocal : last ≤ hits ↔ tracker.LocalNext registry board := by
      rw [UInt64.le_iff_toNat_le, hhits, hlast, LocalNext]
    rw [exactNext_iff]
    by_cases hnext : last ≤ hits
    · simp [hnext, hlocal.1 hnext, eq_comm]
    · rw [if_neg hnext, anyM_siteHasNext?_eq_some_iff hpos]
      simp [mt hlocal.2 hnext]
  simp only [hasNext?, sumCounts?_eq, sumHits?_eq]
  constructor
  · intro h
    obtain ⟨seen, hseen, h⟩ := Option.bind_eq_some_iff.1 h
    obtain ⟨hits, hhits, h⟩ := Option.bind_eq_some_iff.1 h
    obtain ⟨last, hlast, h⟩ := Option.bind_eq_some_iff.1 h
    rw [Word.ofNat?_eq_some_iff] at hseen hhits
    rw [Word.add?, Word.ofNat?_eq_some_iff, hseen] at hlast
    obtain ⟨hsites, hmore⟩ := (hlook hhits hlast).1 h
    exact ⟨⟨hhits ▸ hits.toNat_lt, hlast ▸ last.toNat_lt, hsites⟩, hmore⟩
  · rintro ⟨⟨hhits, hcounts, hsites⟩, hmore⟩
    have hseen := Nat.lt_of_le_of_lt (Nat.le_add_right _ _) hcounts
    obtain ⟨hits, hhits⟩ := Option.isSome_iff_exists.1 (Word.isSome_ofNat?.2 hhits)
    obtain ⟨seen, hseen⟩ := Option.isSome_iff_exists.1 (Word.isSome_ofNat?.2 hseen)
    obtain ⟨last, hlast⟩ := Option.isSome_iff_exists.1 (Word.isSome_ofNat?.2 hcounts)
    refine Option.bind_eq_some_iff.2 ⟨seen, hseen, Option.bind_eq_some_iff.2 ⟨hits, hhits, ?_⟩⟩
    rw [Word.ofNat?_eq_some_iff] at hseen hhits
    rw [Word.add?, hseen]
    refine Option.bind_eq_some_iff.2 ⟨last, hlast, ?_⟩
    exact (hlook hhits (Word.ofNat?_eq_some_iff.1 hlast)).2 ⟨hsites, hmore⟩

/-- Where a test gives up on none that is looked at, a list has a member that passes it or not. -/
theorem any_eq_of_anyM {α : Type} {test? : α → Option Bool} {test : α → Bool}
    (htest : ∀ value found, test? value = some found → test value = found) {values : List α}
    (h : values.anyM test? = some more) : values.any test = more := by
  induction values with
  | nil => exact Option.some.inj h
  | cons value rest ih =>
    rw [List.anyM_cons] at h
    obtain ⟨found, hfound, h⟩ := Option.bind_eq_some_iff.1 h
    rw [List.any_cons, htest value found hfound]
    cases found with
    | true => exact Option.some.inj h
    | false => exact ih h

/-- Where asking for a next page does not give up, it comes to the same in words that wrap
around. -/
theorem hasNext_eq_of_hasNext? (h : tracker.hasNext? registry board = some more) :
    tracker.hasNext registry board = more := by
  obtain ⟨seen, hseen, h⟩ := Option.bind_eq_some_iff.1 h
  obtain ⟨hits, hhits, h⟩ := Option.bind_eq_some_iff.1 h
  obtain ⟨last, hlast, h⟩ := Option.bind_eq_some_iff.1 h
  rw [sumCounts?_eq, Word.ofNat?_eq_some_iff] at hseen
  rw [sumHits?_eq, Word.ofNat?_eq_some_iff] at hhits
  have hseen' : ((localStatuses registry board).map Status.count).foldr (· + ·) 0 = seen :=
    UInt64.toNat_inj.1 ((toNat_sumCounts (hseen ▸ seen.toNat_lt)).trans hseen.symm)
  have hhits' : sumHits (localStatuses registry board) = hits :=
    UInt64.toNat_inj.1 ((toNat_sumHits (hhits ▸ hits.toNat_lt)).trans hhits.symm)
  obtain ⟨-, rfl⟩ := Word.add?_eq_some_iff.1 hlast
  simp only [hasNext, hseen', hhits']
  split at h
  · rename_i hnext
    rw [decide_eq_true hnext, Bool.true_or]
    exact Option.some.inj h
  · rename_i hnext
    rw [decide_eq_false hnext, Bool.false_or, ← List.any_filter]
    refine any_eq_of_anyM (fun status found hfound => ?_) h
    unfold siteHasNext? at hfound
    split at hfound
    · obtain ⟨last, hlast, hfound⟩ := Option.bind_eq_some_iff.1 hfound
      obtain ⟨-, rfl⟩ := Word.add?_eq_some_iff.1 hlast
      exact Option.some.inj hfound
    · exact Option.some.inj hfound

end PageTracker

/-! ## Half of what a word holds -/

/-- Half of what a word holds. -/
def half : Nat := 2 ^ 63

/-- The hits and the counts on a board, each summed up, keep to half of what a word holds. -/
structure StatusBoard.Modest (board : StatusBoard) : Prop where
  hits : knownHits board.real < half
  counts : returned board.real < half

instance (board : StatusBoard) : Decidable board.Modest :=
  decidable_of_iff (knownHits board.real < half ∧ returned board.real < half)
    ⟨fun h => ⟨h.1, h.2⟩, fun h => ⟨h.hits, h.counts⟩⟩

/-- Offsets lie between the first record and half of what a word holds. -/
structure Offsets.Modest (offsets : Offsets) : Prop where
  sorted : offsets.Sorted
  one_le : ∀ key, 1 ≤ (offsets.get key).toNat
  le_half : ∀ key, (offsets.get key).toNat ≤ half

theorem Offsets.modest_empty : Modest .empty :=
  ⟨Table.sorted_nil, fun key => by rw [get_empty]; decide, fun key => by rw [get_empty]; decide⟩

namespace PageTracker

variable {tracker : PageTracker} {registry : Registry} {board : StatusBoard} {status : Status}

theorem exactCap_le_half (h : board.Modest) (hstatus : status ∈ board.real) :
    exactCap registry board status ≤ half := by
  rw [exactCap]
  split
  · exact Nat.lt_of_le_of_lt (knownHits_le_of_sublist (localStatuses_sublist registry board))
      h.hits
  · have hsite := knownHits_le_of_sublist (List.singleton_sublist.2 hstatus)
    rw [knownHits_singleton] at hsite
    exact Nat.lt_of_le_of_lt hsite h.hits

/-- A federated site keeps to what its board does. -/
theorem site_lt_half (h : board.Modest) (hstatus : status ∈ board)
    (hfederated : registry.isFederated status.id = true) :
    (status.hits.getD 0).toNat < half ∧ status.count.toNat < half := by
  have hsite := site_sublist hstatus hfederated
  have hhits := knownHits_le_of_sublist hsite
  have hcount := returned_le_of_sublist hsite
  rw [knownHits_singleton] at hhits
  rw [returned_singleton] at hcount
  exact ⟨Nat.lt_of_le_of_lt hhits h.hits, Nat.lt_of_le_of_lt hcount h.counts⟩

theorem turnsInWords_of_modest (htracker : tracker.current.Modest) (hboard : board.Modest) :
    tracker.TurnsInWords registry board := by
  have hcounts := hboard.counts
  constructor
  · exact Nat.lt_of_le_of_lt (Nat.succ_le_of_lt (Nat.lt_of_le_of_lt
      (knownHits_le_of_sublist (localStatuses_sublist registry board)) hboard.hits)) (by decide)
  · intro before status hbefore hcache
    have hstatus : status ∈ board := hbefore.subset (List.mem_append_right _ List.mem_cons_self)
    refine ⟨fun hfederated => ?_, ?_⟩
    · exact Nat.lt_of_le_of_lt (Nat.succ_le_of_lt (site_lt_half hboard hstatus hfederated).1)
        (by decide)
    · have hmoved := exactOffset_le_add registry board
        (tracker.startOf (registry.offsetKey status.id)).toNat
        (sharing registry (registry.offsetKey status.id) before)
      have hshared : returned (sharing registry (registry.offsetKey status.id) before) +
          status.count.toNat ≤ returned board.real := by
        rw [← returned_singleton status, ← returned_append]
        refine returned_le_of_sublist (.trans ?_
          (sharing_sublist registry (registry.offsetKey status.id) board))
        have hall : (sharing registry (registry.offsetKey status.id) (before ++ [status])).Sublist
            (sharing registry (registry.offsetKey status.id) board) := hbefore.sublist.filter _
        rwa [sharing, List.filter_append, List.filter_cons_of_pos (by simp [hcache])] at hall
      have hstart := htracker.le_half (registry.offsetKey status.id)
      rw [exactAfter]
      rw [startOf] at *
      unfold half at *
      omega

theorem tellsInWords_of_modest (htracker : tracker.current.Modest) (hboard : board.Modest) :
    tracker.TellsInWords registry board := by
  have hlocalHits := knownHits_le_of_sublist (localStatuses_sublist registry board)
  have hlocalCounts := returned_le_of_sublist (localStatuses_sublist registry board)
  have hstart := htracker.le_half
  have hhits := hboard.hits
  have hcounts := hboard.counts
  constructor
  · exact (Nat.lt_of_le_of_lt hlocalHits hhits).trans (by decide)
  · have hlocal := hstart localKey
    rw [startOf]
    unfold half at *
    omega
  · intro _ before status hbefore _ _
    have hsite := hbefore.subset (List.mem_append_right _ List.mem_cons_self)
    obtain ⟨hstatus, hfederated⟩ := List.mem_filter.1 hsite
    have hcount := (site_lt_half hboard hstatus hfederated).2
    have hoffset := hstart status.id
    rw [startOf]
    unfold half at *
    omega

/-- Turning the page leads to modest offsets again. -/
theorem modest_following (htracker : tracker.current.Modest) (hboard : board.Modest)
    (selected : List String) : (tracker.following selected registry board).Modest := by
  have hturns : tracker.TurnsInWords registry board := turnsInWords_of_modest htracker hboard
  have hget (key : String) :=
    hturns.toNat_get_following htracker.sorted htracker.one_le selected key
  refine ⟨sorted_following selected board, fun key => ?_, fun key => ?_⟩
  · rw [hget]
    exact one_le_exactOffset registry board (htracker.one_le key) _
  · rw [hget]
    refine exactOffset_le (htracker.le_half key) fun status hstatus => ?_
    exact exactCap_le_half hboard ((sharing_sublist registry key board).subset hstatus)

end PageTracker

end CatalogSearch
