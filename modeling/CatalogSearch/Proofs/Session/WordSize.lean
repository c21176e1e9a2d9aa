import CatalogSearch.Proofs.Paging.Checked
import CatalogSearch.Proofs.Session.Restarting
import Mathlib.Data.List.Infix

/-!
# Hits and counts of any size

Catalogs report hits and counts as they please.  What paging comes to is exact, but it gives up
where a sum passes a word, and one more than the largest number of hits is such a sum.  As long
as what is on the board keeps to half of what a word holds, the offsets do as well, whatever is
done with the session, and nothing gives up.
-/

namespace CatalogSearch

open StatusBoard

namespace Operation

/-- What holds of trackers through rounds and turned pages holds after an operation. -/
theorem tracker_run {good : PageTracker → Prop} {session : Session} (operation : Operation)
    (hfresh : good .fresh) (hbegin : ∀ tracker, good tracker → good tracker.beginRound)
    (hadvance : good (session.tracker.advance session.selectedSources session.registry
      session.statuses))
    (hretreat : ∀ previous, session.tracker.retreat? = some previous → good previous)
    (h : good session.tracker) : good (operation.run session).1.tracker := by
  cases hsearch : operation.search? session with
  | none =>
    obtain ⟨-, htracker⟩ | htracker := frame_of_search?_eq_none hsearch
    · rwa [htracker]
    · rwa [htracker]
  | some search =>
    obtain ⟨before, options⟩ := search
    have hbefore : good before.tracker := by
      cases hturns : operation.turnsPage with
      | false =>
        obtain htracker | ⟨-, htracker⟩ := (frame_of_search? hsearch).2.2 hturns
        · rwa [htracker]
        · rwa [htracker]
      | true =>
        cases operation with
        | nextPage =>
          cases hsearch
          exact hadvance
        | previousPage =>
          obtain ⟨previous, hprevious, hsearch⟩ := Option.map_eq_some_iff.1 hsearch
          cases hsearch
          exact hretreat previous hprevious
        | _ => cases hturns
    rw [run_of_search? hsearch]
    obtain htracker | htracker := Session.tracker_start before options
    · exact htracker ▸ hbegin _ hbefore
    · exact htracker ▸ hbefore

end Operation

namespace Session

variable {session : Session} {visible : UInt64} {label : String}

/-! ## Labels -/

/-- The label of a page, in numbers. -/
def exactLabel (session : Session) (visible : Nat) : String :=
  let hits := knownHits session.statuses.real
  if visible = 0 then "0 results"
  else if hits < visible then toString visible ++ " results"
  else
    let start := session.tracker.pageIndex * session.surroundings.pageSize.toNat
    toString (start + 1) ++ "-" ++ toString (start + visible) ++ " of " ++ toString hits

/-- Neither the hits nor a position that a label tells of passes a word. -/
structure LabelsInWords (session : Session) (visible : Nat) : Prop where
  hits : knownHits session.statuses.real < 2 ^ 64
  pages : visible ≠ 0 → visible ≤ knownHits session.statuses.real →
    session.tracker.pageIndex < 2 ^ 64
  last : visible ≠ 0 → visible ≤ knownHits session.statuses.real →
    session.tracker.pageIndex * session.surroundings.pageSize.toNat + visible < 2 ^ 64

/-- The position before a page is given up just where it passes a word. -/
theorem pageStart?_eq_some_iff {start : UInt64} :
    session.pageStart? = some start ↔ session.tracker.pageIndex < 2 ^ 64 ∧
      start.toNat = session.tracker.pageIndex * session.surroundings.pageSize.toNat := by
  unfold pageStart?
  constructor
  · intro h
    obtain ⟨pages, hpages, h⟩ := Option.bind_eq_some_iff.1 h
    rw [Word.ofNat?_eq_some_iff] at hpages
    rw [Word.mul?, Word.ofNat?_eq_some_iff, hpages, UInt32.toNat_toUInt64] at h
    exact ⟨hpages ▸ pages.toNat_lt, h⟩
  · rintro ⟨hpages, hstart⟩
    obtain ⟨pages, hpages⟩ := Option.isSome_iff_exists.1 (Word.isSome_ofNat?.2 hpages)
    refine Option.bind_eq_some_iff.2 ⟨pages, hpages, ?_⟩
    rw [Word.mul?, Word.ofNat?_eq_some_iff, Word.ofNat?_eq_some_iff.1 hpages,
      UInt32.toNat_toUInt64, hstart]

/-- The positions that a label tells of are given up just where they pass a word. -/
theorem pageLabel?_eq_some_iff {hits : UInt64} (hsome : visible ≠ 0) :
    session.pageLabel? visible hits = some label ↔
      session.tracker.pageIndex < 2 ^ 64 ∧
        session.tracker.pageIndex * session.surroundings.pageSize.toNat + visible.toNat < 2 ^ 64 ∧
        label =
          toString (session.tracker.pageIndex * session.surroundings.pageSize.toNat + 1) ++ "-" ++
            toString (session.tracker.pageIndex * session.surroundings.pageSize.toNat +
              visible.toNat) ++ " of " ++ toString hits.toNat := by
  have hword (word : UInt64) : toString word = toString word.toNat := rfl
  have hpos : 1 ≤ visible.toNat := Nat.pos_of_ne_zero fun h => hsome (UInt64.toNat_inj.1 h)
  unfold pageLabel?
  constructor
  · intro h
    obtain ⟨start, hstart, h⟩ := Option.bind_eq_some_iff.1 h
    obtain ⟨first, hfirst, h⟩ := Option.bind_eq_some_iff.1 h
    obtain ⟨last, hlast, h⟩ := Option.bind_eq_some_iff.1 h
    obtain ⟨hpages, hstart⟩ := pageStart?_eq_some_iff.1 hstart
    rw [Word.add?, Word.ofNat?_eq_some_iff, hstart] at hfirst hlast
    rw [← Option.some.inj h, hword first, hword last, hword hits, hfirst, hlast]
    exact ⟨hpages, hlast ▸ last.toNat_lt, rfl⟩
  · rintro ⟨hpages, hlast, rfl⟩
    obtain ⟨start, hstart⟩ := Option.isSome_iff_exists.1
      (Word.isSome_ofNat?.2 ((Nat.le_add_right _ _).trans_lt hlast))
    obtain ⟨first, hfirst⟩ := Option.isSome_iff_exists.1
      (Word.isSome_ofNat?.2 ((Nat.add_le_add_left hpos _).trans_lt hlast))
    obtain ⟨last, hlast⟩ := Option.isSome_iff_exists.1 (Word.isSome_ofNat?.2 hlast)
    rw [Word.ofNat?_eq_some_iff] at hstart
    rw [← hstart] at hfirst hlast ⊢
    refine Option.bind_eq_some_iff.2 ⟨start, pageStart?_eq_some_iff.2 ⟨hpages, hstart⟩, ?_⟩
    refine Option.bind_eq_some_iff.2 ⟨first, hfirst, ?_⟩
    refine Option.bind_eq_some_iff.2 ⟨last, hlast, ?_⟩
    rw [Word.ofNat?_eq_some_iff] at hfirst hlast
    rw [hword first, hword last, hword hits, hfirst, hlast]

/-- A label is given up just where the hits or a position that it tells of pass a word. -/
theorem rangeLabel?_eq_some_iff :
    session.rangeLabel? visible = some label ↔
      session.LabelsInWords visible.toNat ∧ label = session.exactLabel visible.toNat := by
  have htotal : session.totalHits? = Word.ofNat? (knownHits session.statuses.real) :=
    totalHits?_eq _
  unfold rangeLabel?
  rw [htotal]
  cases hhits : Word.ofNat? (knownHits session.statuses.real) with
  | none =>
    refine ⟨nofun, fun h => ?_⟩
    have hfits := Word.isSome_ofNat?.2 h.1.hits
    rw [hhits] at hfits
    cases hfits
  | some hits =>
    have hfits := Word.isSome_ofNat?.1 (Option.isSome_of_eq_some hhits)
    rw [Word.ofNat?_eq_some_iff] at hhits
    change (if visible = 0 then _ else if hits < visible then _ else _) = _ ↔ _
    rw [exactLabel, ← hhits]
    by_cases hnone : visible = 0
    · have hzero : visible.toNat = 0 := congrArg UInt64.toNat hnone
      rw [if_pos hnone, if_pos hzero, Option.some.injEq, eq_comm]
      exact (and_iff_right ⟨hfits, fun h => absurd hzero h, fun h => absurd hzero h⟩).symm
    · have hsome : visible.toNat ≠ 0 := fun h => hnone (UInt64.toNat_inj.1 h)
      rw [if_neg hnone, if_neg hsome]
      by_cases hmore : hits < visible
      · have hmore' : hits.toNat < visible.toNat := UInt64.lt_iff_toNat_lt.1 hmore
        rw [if_pos hmore, if_pos hmore', Option.some.injEq, eq_comm]
        refine (and_iff_right ⟨hfits, fun _ h => ?_, fun _ h => ?_⟩).symm <;>
          exact absurd (hhits ▸ h) (Nat.not_le_of_lt hmore')
      · have hfew : ¬hits.toNat < visible.toNat := mt UInt64.lt_iff_toNat_lt.2 hmore
        have hall : visible.toNat ≤ knownHits session.statuses.real :=
          hhits ▸ Nat.le_of_not_lt hfew
        rw [if_neg hmore, if_neg hfew, pageLabel?_eq_some_iff hnone, ← and_assoc]
        refine and_congr_left fun _ => ⟨fun h => ?_, fun h => ?_⟩
        · exact ⟨hfits, fun _ _ => h.1, fun _ _ => h.2⟩
        · exact ⟨h.pages hsome hall, h.last hsome hall⟩

/-- The number of records that the pages before the staged one have room for. -/
theorem toNat_pageStart {pages : Nat} {pageSize : UInt32} (hpages : pages < 2 ^ 64)
    (hstart : pages * pageSize.toNat < 2 ^ 64) :
    (UInt64.ofNat pages * pageSize.toUInt64).toNat = pages * pageSize.toNat := by
  rw [UInt64.toNat_mul, UInt64.toNat_ofNat_of_lt' hpages, UInt32.toNat_toUInt64]
  exact Nat.mod_eq_of_lt hstart

/-- A label in words that wrap around is right where none of them has to. -/
theorem rangeLabel_eq_exactLabel (h : session.LabelsInWords visible.toNat) :
    session.rangeLabel visible = session.exactLabel visible.toNat := by
  have htotal : session.totalHits.toNat = knownHits session.statuses.real := toNat_sumHits h.hits
  have hzero : visible = 0 ↔ visible.toNat = 0 := UInt64.toNat_inj.symm
  have hmore : session.totalHits < visible ↔ knownHits session.statuses.real < visible.toNat := by
    rw [UInt64.lt_iff_toNat_lt, htotal]
  have hword (word : UInt64) : toString word = toString word.toNat := rfl
  simp only [rangeLabel, exactLabel, hzero, hmore, hword]
  split
  · rfl
  · rename_i hsome
    split
    · rfl
    · rename_i hfew
      have hpages := h.pages hsome (Nat.le_of_not_lt hfew)
      have hlast := h.last hsome (Nat.le_of_not_lt hfew)
      have hstart := toNat_pageStart hpages ((Nat.le_add_right _ visible.toNat).trans_lt hlast)
      have hsum (word : UInt64) (hle : word.toNat ≤ visible.toNat) :
          (UInt64.ofNat session.tracker.pageIndex * session.surroundings.pageSize.toUInt64 +
            word).toNat =
          session.tracker.pageIndex * session.surroundings.pageSize.toNat + word.toNat := by
        rw [UInt64.toNat_add, hstart]
        exact Nat.mod_eq_of_lt ((Nat.add_le_add_left hle _).trans_lt hlast)
      rw [hsum 1 (Nat.pos_of_ne_zero hsome), hsum visible (Nat.le_refl _), htotal]
      rfl

/-- Where a label is not given up, it is the same in words that wrap around. -/
theorem rangeLabel_eq_of_rangeLabel? (h : session.rangeLabel? visible = some label) :
    session.rangeLabel visible = label := by
  obtain ⟨hfits, rfl⟩ := rangeLabel?_eq_some_iff.1 h
  exact rangeLabel_eq_exactLabel hfits

theorem labelsInWords_of_modest (hhits : knownHits session.statuses.real < half)
    (hpages : session.tracker.pageIndex < 2 ^ 31) (visible : Nat) :
    session.LabelsInWords visible := by
  have hstart : session.tracker.pageIndex * session.surroundings.pageSize.toNat < half :=
    calc session.tracker.pageIndex * session.surroundings.pageSize.toNat
        ≤ session.tracker.pageIndex * 2 ^ 32 :=
          Nat.mul_le_mul_left _ (Nat.le_of_lt session.surroundings.pageSize.toNat_lt)
      _ < 2 ^ 31 * 2 ^ 32 := Nat.mul_lt_mul_of_pos_right hpages (by decide)
  refine ⟨hhits.trans (by decide), fun _ _ => hpages.trans (by decide), fun _ hfew => ?_⟩
  unfold half at *
  omega

/-! ## Checked sums -/

/-- What paging comes to for a session is exact, and it gives up just where a sum passes a
word. -/
structure PagesExactly (session : Session) : Prop where
  turns : ∀ selected, (session.tracker.advance? selected session.registry
    session.statuses).isSome = true ↔
      session.tracker.TurnsInWords session.registry session.statuses
  staged : ∀ selected staged,
    session.tracker.advance? selected session.registry session.statuses = some staged →
      ∀ key, (staged.next.get key).toNat =
        PageTracker.exactOffset session.registry session.statuses
          (session.tracker.startOf key).toNat (session.statuses.sharing session.registry key)
  next : ∀ more, session.hasNextPage? = some more ↔
    session.tracker.TellsInWords session.registry session.statuses ∧
      (more = true ↔ session.tracker.ExactNext session.registry session.statuses)
  total : ∀ hits, session.totalHits? = some hits ↔
    hits.toNat = knownHits session.statuses.real
  label : ∀ visible label, session.rangeLabel? visible = some label ↔
    session.LabelsInWords visible.toNat ∧ label = session.exactLabel visible.toNat

theorem pagesExactly_of_reached (h : session.tracker.Reached) : session.PagesExactly where
  turns selected := by
    rw [Option.isSome_iff_exists]
    simp only [PageTracker.advance?_eq_some_iff h.sorted.current h.one_le.current, exists_and_left,
      exists_eq, and_true]
  staged selected staged hstaged key := by
    obtain ⟨hturns, rfl⟩ :=
      (PageTracker.advance?_eq_some_iff h.sorted.current h.one_le.current selected).1 hstaged
    exact hturns.toNat_get_following h.sorted.current h.one_le.current selected key
  next _ := PageTracker.hasNext?_eq_some_iff h.one_le.current
  total hits := by
    have htotal : session.totalHits? = Word.ofNat? (knownHits session.statuses.real) :=
      totalHits?_eq _
    rw [htotal, Word.ofNat?_eq_some_iff]
  label _ _ := rangeLabel?_eq_some_iff

/-- Where turning the page does not give up, it comes to the same in words that wrap around. -/
theorem nextPage_eq_of_nextPage? {searched : Searched} (h : session.nextPage? = some searched) :
    session.nextPage = searched := by
  obtain ⟨staged, hstaged, h⟩ := Option.bind_eq_some_iff.1 h
  rw [← Option.some.inj h, nextPage, PageTracker.advance_eq_of_advance? hstaged]

theorem nextPage?_eq_none_iff (h : session.tracker.Reached) :
    session.nextPage? = none ↔
      ¬session.tracker.TurnsInWords session.registry session.statuses := by
  rw [← (pagesExactly_of_reached h).turns session.selectedSources, nextPage?]
  cases session.tracker.advance? session.selectedSources session.registry session.statuses <;>
    simp

end Session

namespace Operation

/-- An operation that does not give up comes to the same in words that wrap around. -/
theorem run_eq_of_run? {session : Session} {operation : Operation}
    {ran : Session × List Request} (h : operation.run? session = some ran) :
    operation.run session = ran := by
  cases operation with
  | nextPage =>
    obtain ⟨searched, hsearched, rfl⟩ := Option.map_eq_some_iff.1 h
    rw [run, Session.nextPage_eq_of_nextPage? hsearched]
  | _ => exact Option.some.inj h

theorem run?_eq_none_iff {session : Session} (h : session.tracker.Reached)
    {operation : Operation} :
    operation.run? session = none ↔ operation = nextPage ∧
      ¬session.tracker.TurnsInWords session.registry session.statuses := by
  cases operation with
  | nextPage =>
    rw [run?, Option.map_eq_none_iff, Session.nextPage?_eq_none_iff h]
    exact (and_iff_right rfl).symm
  | _ => exact ⟨nofun, nofun⟩

end Operation

namespace Traffic

variable {traffic after : Traffic} {action : Action} {actions : List Action}

theorem reached_act (h : traffic.session.tracker.Reached) (action : Action) :
    (traffic.act action).session.tracker.Reached := by
  cases action with
  | operate operation =>
    exact operation.tracker_run .fresh (fun _ => .beginRound) (.advance h _ _ _)
      (fun _ => .retreat h) h
  | answer call reply =>
    rwa [act, (keeps_answer traffic call reply).tracker]

theorem reached_run (h : traffic.session.tracker.Reached) (actions : List Action) :
    (traffic.run actions).session.tracker.Reached := by
  induction actions generalizing traffic with
  | nil => exact h
  | cons action rest ih => exact ih (reached_act h action)

/-! ## Checked runs -/

theorem act_eq_of_act? (h : traffic.act? action = some after) : traffic.act action = after := by
  cases action with
  | operate operation =>
    obtain ⟨ran, -, h⟩ := Option.map_eq_some_iff.1 h
    exact h
  | answer call reply => exact Option.some.inj h

/-- A run that does not give up comes to the same in words that wrap around. -/
theorem run_eq_of_run? (h : traffic.run? actions = some after) : traffic.run actions = after := by
  induction actions generalizing traffic with
  | nil => exact Option.some.inj h
  | cons action rest ih =>
    obtain ⟨next, hnext, h⟩ := Option.bind_eq_some_iff.1 h
    rw [← ih h, ← act_eq_of_act? hnext]
    rfl

theorem reached_of_run? (h : traffic.session.tracker.Reached)
    (hrun : traffic.run? actions = some after) : after.session.tracker.Reached := by
  rw [← run_eq_of_run? hrun]
  exact reached_run h actions

theorem act?_eq_none_iff (h : traffic.session.tracker.Reached) :
    traffic.act? action = none ↔ action = .operate .nextPage ∧
      ¬traffic.session.tracker.TurnsInWords traffic.session.registry traffic.session.statuses := by
  cases action with
  | operate operation =>
    rw [act?, Option.map_eq_none_iff, Operation.run?_eq_none_iff h, Action.operate.injEq]
  | answer call reply => exact ⟨nofun, nofun⟩

theorem run?_cons_of_act? {next : Traffic} (h : traffic.act? action = some next)
    (actions : List Action) : traffic.run? (action :: actions) = next.run? actions := by
  rw [run?, List.foldlM_cons, h]
  rfl

/-- A run gives up just where the page is turned and a sum passes a word. -/
theorem run?_eq_none_iff (h : traffic.session.tracker.Reached) :
    traffic.run? actions = none ↔ ∃ before rest last,
      actions = before ++ .operate .nextPage :: rest ∧ traffic.run? before = some last ∧
        ¬last.session.tracker.TurnsInWords last.session.registry last.session.statuses := by
  induction actions generalizing traffic with
  | nil =>
    refine ⟨nofun, ?_⟩
    rintro ⟨before, rest, last, hactions, -⟩
    exact absurd hactions.symm (by simp)
  | cons action actions ih =>
    cases hact : traffic.act? action with
    | none =>
      obtain ⟨rfl, hpasses⟩ := (act?_eq_none_iff h).1 hact
      refine iff_of_true ?_ ⟨[], actions, traffic, rfl, rfl, hpasses⟩
      rw [run?, List.foldlM_cons, hact]
      rfl
    | some next =>
      have hfirst := run?_cons_of_act? hact
      have hnext : next.session.tracker.Reached := act_eq_of_act? hact ▸ reached_act h action
      rw [hfirst, ih hnext]
      constructor
      · rintro ⟨before, rest, last, rfl, hlast, hpasses⟩
        exact ⟨action :: before, rest, last, rfl, (hfirst before).trans hlast, hpasses⟩
      · rintro ⟨before, rest, last, hactions, hlast, hpasses⟩
        cases before with
        | nil =>
          -- the first action would have given up
          obtain ⟨rfl, -⟩ := List.cons.inj hactions
          cases hlast
          rw [(act?_eq_none_iff h).2 ⟨rfl, hpasses⟩] at hact
          cases hact
        | cons first before =>
          obtain ⟨rfl, rfl⟩ := List.cons.inj hactions
          exact ⟨before, rest, last, rfl, (hfirst before).symm.trans hlast, hpasses⟩

/-! ## Modest boards -/

/-- All tables of the tracker are modest. -/
def Modest (traffic : Traffic) : Prop := PageTracker.Each Offsets.Modest traffic.session.tracker

theorem Modest.act (h : traffic.Modest) (hboard : traffic.session.statuses.Modest)
    (action : Action) : (traffic.act action).Modest := by
  cases action with
  | operate operation =>
    exact operation.tracker_run (.fresh Offsets.modest_empty) (fun _ h => h.beginRound)
      (h.advance (PageTracker.modest_following h.current hboard _)) (fun _ => h.retreat) h
  | answer call reply =>
    simp only [Traffic.act, answer]
    split
    · exact h
    · split <;> exact h

theorem modest_create (session : Session) (h : session.tracker = .fresh) :
    (Traffic.create session).Modest := by
  rw [Modest, create, h]
  exact .fresh Offsets.modest_empty

/-- As long as boards are modest, a run does not give up and stays modest itself. -/
theorem Modest.exists_run? (h : traffic.Modest) (hreached : traffic.session.tracker.Reached)
    (hboards : ∀ before after, before <+: actions → traffic.run? before = some after →
      after.session.statuses.Modest) :
    ∃ after, traffic.run? actions = some after ∧ after.Modest := by
  induction actions generalizing traffic with
  | nil => exact ⟨traffic, rfl, h⟩
  | cons action rest ih =>
    have hboard := hboards [] traffic List.nil_prefix rfl
    cases hact : traffic.act? action with
    | none =>
      exact absurd (PageTracker.turnsInWords_of_modest h.current hboard)
        ((act?_eq_none_iff hreached).1 hact).2
    | some next =>
      have hfirst := run?_cons_of_act? hact
      rw [hfirst]
      rw [← act_eq_of_act? hact] at hfirst ⊢
      refine ih (h.act hboard action) (reached_act hreached action) ?_
      intro before after hbefore hrun
      exact hboards (action :: before) after (List.cons_prefix_cons.2 ⟨rfl, hbefore⟩)
        ((hfirst before).trans hrun)

/-- Along every run, what paging comes to is exact, and it gives up just where a sum passes a
word; the run itself gives up just where the page is turned at such a sum.  Nothing gives up in
a run in which the board keeps to half of what a word holds, nor does a label on one of the
first `2 ^ 31` pages. -/
theorem paging_is_exact (query : Query) (surroundings : Surroundings) (actions : List Action) :
    let created := Traffic.create (.create query surroundings)
    (∀ traffic, created.run? actions = some traffic → traffic.session.PagesExactly) ∧
      (created.run? actions = none ↔ ∃ before rest traffic,
        actions = before ++ .operate .nextPage :: rest ∧ created.run? before = some traffic ∧
          ¬traffic.session.tracker.TurnsInWords traffic.session.registry
            traffic.session.statuses) ∧
      ((∀ before traffic, before <+: actions → created.run? before = some traffic →
          traffic.session.statuses.Modest) →
        ∃ traffic, created.run? actions = some traffic ∧
          let session := traffic.session
          session.tracker.TurnsInWords session.registry session.statuses ∧
            session.tracker.TellsInWords session.registry session.statuses ∧
            knownHits session.statuses.real < 2 ^ 64 ∧
            (session.tracker.pageIndex < 2 ^ 31 →
              ∀ visible, session.LabelsInWords visible)) := by
  intro created
  have hreached : created.session.tracker.Reached := .fresh
  refine ⟨fun traffic hrun => ?_, run?_eq_none_iff hreached, fun hboards => ?_⟩
  · exact Session.pagesExactly_of_reached (reached_of_run? hreached hrun)
  · obtain ⟨traffic, hrun, hmodest⟩ := (modest_create _ rfl).exists_run? hreached hboards
    have hboard := hboards actions traffic List.prefix_rfl hrun
    exact ⟨traffic, hrun, PageTracker.turnsInWords_of_modest hmodest.current hboard,
      PageTracker.tellsInWords_of_modest hmodest.current hboard,
      hboard.hits.trans (by decide), Session.labelsInWords_of_modest hboard.hits⟩

/-- The surroundings of a session that knows its local catalog only. -/
def catalogOnly : Surroundings := ⟨.create "home" false, 10, 1000, none⟩

/-- A search whose only source returns ten records of some number of hits. -/
def firstPage (hits : UInt64) : List Action :=
  [.operate (.start {}), .answer 0 (.ok ⟨[], [⟨"home", some hits, some 10, none, none, []⟩]⟩),
    .operate .poll]

theorem thirty_hits_page_exactly :
    ∃ traffic, (Traffic.create (.create (.create "query" "Search") catalogOnly)).run?
        (firstPage 30) = some traffic ∧
      (∃ staged, traffic.session.tracker.advance? ["home"] traffic.session.registry
          traffic.session.statuses = some staged ∧ (staged.next.get localKey).toNat = 11) ∧
      traffic.session.hasNextPage? = some true ∧ traffic.session.totalHits? = some 30 ∧
      traffic.session.rangeLabel? 10 = some "1-10 of 30" := by
  have hinits : ∀ before ∈ (firstPage 30).inits,
      ((Traffic.create (.create (.create "query" "Search") catalogOnly)).run? before).all
        (fun traffic => decide traffic.session.statuses.Modest) = true := by decide +kernel
  obtain ⟨hexact, -, hmodest⟩ :=
    paging_is_exact (.create "query" "Search") catalogOnly (firstPage 30)
  have hboards (before : List Action) (traffic : Traffic) (hbefore : before <+: firstPage 30)
      (hrun : (Traffic.create (.create (.create "query" "Search") catalogOnly)).run? before =
        some traffic) : traffic.session.statuses.Modest := by
    have hboard := hinits before ((List.mem_inits _ _).2 hbefore)
    rw [hrun] at hboard
    exact of_decide_eq_true hboard
  obtain ⟨traffic, hrun, hturns, htells, -, hlabels⟩ := hmodest hboards
  have hpaging := hexact traffic hrun
  obtain rfl := run_eq_of_run? hrun
  obtain ⟨staged, hstaged⟩ := Option.isSome_iff_exists.1 ((hpaging.turns ["home"]).2 hturns)
  refine ⟨_, hrun, ⟨staged, hstaged, ?_⟩, ?_, ?_, ?_⟩
  · rw [hpaging.staged ["home"] staged hstaged localKey]
    decide +kernel
  · refine (hpaging.next true).2 ⟨htells, iff_of_true rfl (.inl ?_)⟩
    rw [PageTracker.LocalNext]
    decide +kernel
  · rw [hpaging.total]
    decide +kernel
  · exact (hpaging.label 10 _).2 ⟨hlabels (by decide +kernel) _, by decide +kernel⟩

/-- One more than the largest number of hits is no word, so that the page after the first cannot
be turned to.  In words that wrap around it is the first one again. -/
theorem most_hits_give_up :
    let created := Traffic.create (.create (.create "query" "Search") catalogOnly)
    let told := firstPage 18446744073709551615
    created.run? (told ++ [.operate .nextPage]) = none ∧
      (created.run? told).map (fun traffic =>
        PageTracker.exactOffset traffic.session.registry traffic.session.statuses
          (traffic.session.tracker.startOf localKey).toNat
          (traffic.session.statuses.sharing traffic.session.registry localKey)) = some 11 ∧
      (created.run? told).map (fun traffic =>
        (traffic.session.tracker.advance ["home"] traffic.session.registry
          traffic.session.statuses).next.get localKey) = some 1 := by
  refine ⟨Option.isNone_iff_eq_none.1 ?_, ?_, ?_⟩ <;> decide +kernel

end Traffic

end CatalogSearch
