import CatalogSearch.Paging.Tracker
import CatalogSearch.Proofs.Tables
import Mathlib.Algebra.Order.Ring.Nat

/-!
# Turning to the next page

What the tracker does with words of sixty-four bits, in numbers.  Statuses share an
offset if they are of local sites, or of the same site.  As long as the counts of the
statuses that share one stay within their hits, turning the page adds these counts to
the offset, and there is a next page if and only if some offset does not reach past
the hits by that.
-/

namespace CatalogSearch

namespace Offsets

theorem sorted_set {offsets : Offsets} (h : offsets.Sorted) (key : String) (offset : UInt64) :
    (offsets.set key offset).Sorted :=
  h.insert key (max offset 1)

/-- Setting all entries of a sorted table again brings their offsets back. -/
theorem get_foldl_set {entries : Offsets} (h : entries.Sorted) (offsets : Offsets)
    (key : String) :
    (entries.foldl (fun offsets entry => offsets.set entry.1 entry.2) offsets).get key =
      ((Table.find? key entries).map (max · 1)).getD (offsets.get key) := by
  induction entries generalizing offsets with
  | nil => rfl
  | cons entry rest ih =>
    obtain ⟨hfirst, hrest⟩ := List.pairwise_cons.1 h
    rw [List.foldl_cons, ih hrest, Table.find?]
    split
    · rename_i hkey
      subst hkey
      rw [Table.find?_eq_none_of_lt hfirst]
      exact get_set_self offsets entry.1 entry.2
    · rename_i hkey
      rw [get_set_other offsets (Ne.symm hkey)]

end Offsets

/-- The key of the offset at which a source is read. -/
def Registry.offsetKey (registry : Registry) (id : String) : String :=
  if registry.isLocal id then localKey else id

namespace StatusBoard

/-- The statuses of the sources that share an offset. -/
def sharing (registry : Registry) (key : String) (board : StatusBoard) : List Status :=
  board.filter fun status =>
    status.id != Source.cacheId && registry.offsetKey status.id == key

/-- The known hits of some sources, as a number. -/
def knownHits (statuses : List Status) : Nat :=
  (statuses.map fun status => (status.hits.getD 0).toNat).sum

/-- How many records some sources returned, as a number. -/
def returned (statuses : List Status) : Nat :=
  (statuses.map fun status => status.count.toNat).sum

variable {registry : Registry}

theorem mem_sharing {key : String} {board : StatusBoard} {status : Status} :
    status ∈ board.sharing registry key ↔
      status ∈ board ∧ status.id ≠ Source.cacheId ∧ registry.offsetKey status.id = key := by
  simp [sharing]

/-- A sum of words is the sum of their numbers, if that is one of a word. -/
theorem toNat_sum {words : List UInt64} (h : (words.map UInt64.toNat).sum < 2 ^ 64) :
    (words.foldr (· + ·) 0).toNat = (words.map UInt64.toNat).sum := by
  induction words with
  | nil => rfl
  | cons word rest ih =>
    rw [List.map_cons, List.sum_cons] at h ⊢
    rw [List.foldr_cons, UInt64.toNat_add, ih (Nat.lt_of_le_of_lt (Nat.le_add_left _ _) h)]
    exact Nat.mod_eq_of_lt h

theorem knownHits_eq (statuses : List Status) :
    knownHits statuses = ((statuses.filterMap Status.hits).map UInt64.toNat).sum := by
  induction statuses with
  | nil => rfl
  | cons status rest ih =>
    rw [knownHits, List.map_cons, List.sum_cons, ← knownHits, ih]
    cases hhits : status.hits with
    | none =>
      rw [List.filterMap_cons_none hhits]
      exact Nat.zero_add _
    | some hits => rw [List.filterMap_cons_some hhits, List.map_cons, List.sum_cons,
        Option.getD_some]

theorem toNat_sumHits {statuses : List Status} (h : knownHits statuses < 2 ^ 64) :
    (sumHits statuses).toNat = knownHits statuses := by
  rw [knownHits_eq] at h ⊢
  exact toNat_sum h

theorem toNat_sumCounts {statuses : List Status} (h : returned statuses < 2 ^ 64) :
    ((statuses.map Status.count).foldr (· + ·) 0).toNat = returned statuses := by
  have hreturned : returned statuses = ((statuses.map Status.count).map UInt64.toNat).sum := by
    rw [List.map_map]
    rfl
  rw [hreturned] at h ⊢
  exact toNat_sum h

end StatusBoard

namespace PageTracker

open StatusBoard

variable {registry : Registry} {offsets : Offsets} {cap : UInt64} {key : String}
  {board : StatusBoard}

/-! ## The offsets of the next page -/

/-- One past the hits up to which a status lets its offset move. -/
def capOf (registry : Registry) (cap : UInt64) (status : Status) : UInt64 :=
  if registry.isLocal status.id then cap else (status.hits.map (· + 1)).getD 1

theorem step_eq {status : Status} (h : status.id ≠ Source.cacheId) :
    step registry cap offsets status =
      offsets.set (registry.offsetKey status.id)
        (min (offsets.get (registry.offsetKey status.id) + status.count)
          (capOf registry cap status)) := by
  rw [step, if_neg h, Registry.offsetKey, capOf]
  split <;> rfl

theorem get_step_of_other {status : Status}
    (h : status.id = Source.cacheId ∨ registry.offsetKey status.id ≠ key) :
    (step registry cap offsets status).get key = offsets.get key := by
  by_cases hcache : status.id = Source.cacheId
  · rw [step, if_pos hcache]
  · rw [step_eq hcache, Offsets.get_set_other]
    exact (h.resolve_left hcache).symm

theorem get_step_of_sharing {status : Status} (hcache : status.id ≠ Source.cacheId)
    (hkey : registry.offsetKey status.id = key) (hpos : 1 ≤ (offsets.get key).toNat)
    (hcap : (offsets.get key).toNat + status.count.toNat ≤ (capOf registry cap status).toNat) :
    ((step registry cap offsets status).get key).toNat =
      (offsets.get key).toNat + status.count.toNat := by
  have hlt : (offsets.get key).toNat + status.count.toNat < 2 ^ 64 :=
    Nat.lt_of_le_of_lt hcap (UInt64.toNat_lt _)
  rw [step_eq hcache, hkey, Offsets.get_set_self, UInt64.toNat_max, UInt64.toNat_min,
    UInt64.toNat_add, Nat.mod_eq_of_lt hlt, Nat.min_eq_left hcap]
  exact Nat.max_eq_left (Nat.le_add_right_of_le hpos)

/-- The statuses that share an offset move it by what they returned, if that stays within
their caps. -/
theorem get_foldl_step (hpos : 1 ≤ (offsets.get key).toNat)
    (hcap : ∀ status ∈ board.sharing registry key,
      (offsets.get key).toNat + returned (board.sharing registry key) ≤
        (capOf registry cap status).toNat) :
    ((board.foldl (step registry cap) offsets).get key).toNat =
      (offsets.get key).toNat + returned (board.sharing registry key) := by
  induction board generalizing offsets with
  | nil => rfl
  | cons status rest ih =>
    rw [List.foldl_cons]
    by_cases hshares : status.id ≠ Source.cacheId ∧ registry.offsetKey status.id = key
    · obtain ⟨hcache, hkey⟩ := hshares
      have hcons : sharing registry key (status :: rest) = status :: sharing registry key rest :=
        List.filter_cons_of_pos (by simp [hcache, hkey])
      have hsum : returned (status :: sharing registry key rest) =
          status.count.toNat + returned (sharing registry key rest) := List.sum_cons
      rw [hcons, hsum] at hcap ⊢
      have hbound : (offsets.get key).toNat + status.count.toNat ≤
          (capOf registry cap status).toNat := by
        have := hcap status List.mem_cons_self
        omega
      have hstep := get_step_of_sharing hcache hkey hpos hbound
      rw [ih, hstep, Nat.add_assoc]
      · omega
      · intro other hother
        have := hcap other (List.mem_cons_of_mem _ hother)
        omega
    · have hcons : sharing registry key (status :: rest) = sharing registry key rest :=
        List.filter_cons_of_neg (by simpa using hshares)
      have hstep : (step registry cap offsets status).get key = offsets.get key := by
        apply get_step_of_other
        rwa [not_and_or, not_not] at hshares
      rw [hcons] at hcap ⊢
      rw [ih, hstep]
      · rw [hstep]
        exact hpos
      · rw [hstep]
        exact hcap

theorem sorted_step (h : offsets.Sorted) (cap : UInt64) (status : Status) :
    (step registry cap offsets status).Sorted := by
  by_cases hcache : status.id = Source.cacheId
  · rwa [step, if_pos hcache]
  · rw [step_eq hcache]
    exact Offsets.sorted_set h _ _

theorem sorted_following {tracker : PageTracker} (selected : List String)
    (board : StatusBoard) : (tracker.following selected registry board).Sorted := by
  have hgroups (groups : List String) :
      (groups.foldl (fun offsets key => Offsets.set offsets key 1) .empty).Sorted :=
    List.foldlRecOn groups _ Table.sorted_nil fun _ h key _ => Offsets.sorted_set h key 1
  have hbaseline : (tracker.baseline selected registry).Sorted :=
    List.foldlRecOn tracker.current _ (hgroups _) fun _ h entry _ =>
      Offsets.sorted_set h entry.1 entry.2
  exact List.foldlRecOn board _ hbaseline fun _ h status _ => sorted_step h _ status

/-- Before statuses move it, each offset is that of the current page. -/
theorem get_baseline {tracker : PageTracker} (h : tracker.current.Sorted)
    (selected : List String) :
    (tracker.baseline selected registry).get key = max (tracker.startOf key) 1 := by
  have hgroups (groups : List String) :
      (groups.foldl (fun offsets key => Offsets.set offsets key 1) .empty).get key = 1 := by
    refine List.foldlRecOn (motive := fun offsets => Offsets.get offsets key = 1) groups _ rfl
      fun offsets h other _ => ?_
    by_cases hkey : key = other
    · rw [hkey, Offsets.get_set_self]
      rfl
    · rwa [Offsets.get_set_other offsets hkey]
  rw [baseline, Offsets.get_foldl_set h, hgroups, startOf, Offsets.get]
  cases Table.find? key tracker.current <;> rfl

/-- Turning the page moves an offset by what the statuses returned that share it. -/
theorem get_following {tracker : PageTracker} (h : tracker.current.Sorted)
    (hpos : 1 ≤ (tracker.startOf key).toNat) (selected : List String)
    (hcap : ∀ status ∈ board.sharing registry key,
      (tracker.startOf key).toNat + returned (board.sharing registry key) ≤
        (capOf registry (localCap registry board) status).toNat) :
    ((tracker.following selected registry board).get key).toNat =
      (tracker.startOf key).toNat + returned (board.sharing registry key) := by
  have hbaseline : (tracker.baseline selected registry).get key = tracker.startOf key := by
    rw [get_baseline h, ← UInt64.toNat_inj, UInt64.toNat_max]
    exact Nat.max_eq_left hpos
  rw [← hbaseline] at hpos hcap ⊢
  exact get_foldl_step hpos hcap

/-! ## What an offset depends on -/

/-- The offset of a group, if it has one, after a status that moves it. -/
def moved (registry : Registry) (cap : UInt64) (held : Option UInt64) (status : Status) :
    Option UInt64 :=
  some (max (min (held.getD 1 + status.count) (capOf registry cap status)) 1)

/-- The offset of a group is moved by the statuses that share it, one after the other. -/
theorem find?_foldl_step (cap : UInt64) (board : StatusBoard) (offsets : Offsets) :
    Table.find? key (board.foldl (step registry cap) offsets) =
      (board.sharing registry key).foldl (moved registry cap) (Table.find? key offsets) := by
  induction board generalizing offsets with
  | nil => rfl
  | cons status rest ih =>
    rw [List.foldl_cons, ih]
    by_cases hshares : status.id ≠ Source.cacheId ∧ registry.offsetKey status.id = key
    · obtain ⟨hcache, hkey⟩ := hshares
      have hcons : sharing registry key (status :: rest) = status :: sharing registry key rest :=
        List.filter_cons_of_pos (by simp [hcache, hkey])
      rw [hcons, step_eq hcache, hkey, Offsets.set, Table.find?_insert_self]
      rfl
    · have hcons : sharing registry key (status :: rest) = sharing registry key rest :=
        List.filter_cons_of_neg (by simpa using hshares)
      rw [hcons]
      by_cases hcache : status.id = Source.cacheId
      · rw [step, if_pos hcache]
      · have hkey : registry.offsetKey status.id ≠ key := fun hkey => hshares ⟨hcache, hkey⟩
        rw [step_eq hcache, Offsets.set, Table.find?_insert_other hkey.symm]

/-- An offset after a status that moves it. -/
def onward (registry : Registry) (cap offset : UInt64) (status : Status) : UInt64 :=
  max (min (offset + status.count) (capOf registry cap status)) 1

/-- The statuses that share an offset move it from that of the current page on. -/
theorem get_following_eq_foldl {tracker : PageTracker} (h : tracker.current.Sorted)
    (selected : List String) :
    (tracker.following selected registry board).get key =
      (board.sharing registry key).foldl (onward registry (localCap registry board))
        (max (tracker.startOf key) 1) := by
  rw [← get_baseline h selected, following, Offsets.get, find?_foldl_step]
  exact (List.foldl_hom (fun held => Option.getD held 1) fun _ _ => rfl).symm

/-- What is staged for a group depends on the statuses of its sources only. -/
theorem find?_following_congr (tracker : PageTracker) (selected : List String)
    {other : StatusBoard}
    (hsharing : board.sharing registry key = other.sharing registry key)
    (hlocal : key = localKey → localStatuses registry board = localStatuses registry other) :
    Table.find? key (tracker.following selected registry board) =
      Table.find? key (tracker.following selected registry other) := by
  rw [following, following, find?_foldl_step, find?_foldl_step, hsharing]
  refine List.foldl_ext _ _ _ fun held status hstatus => ?_
  obtain ⟨-, -, hkey⟩ := mem_sharing.1 hstatus
  rw [moved, moved, capOf, capOf]
  split
  · rename_i hstatusLocal
    rw [Registry.offsetKey, if_pos hstatusLocal] at hkey
    rw [localCap, localCap, hlocal hkey.symm]
  · rfl

/-! ## Caps and the end of paging -/

/-- Only local sites read at the offset of local sites, if no federated one has the name of
that. -/
theorem localStatuses_eq
    (hname : ∀ status ∈ board, registry.isFederated status.id = true → status.id ≠ localKey) :
    localStatuses registry board = board.sharing registry localKey := by
  refine List.filter_congr fun status hstatus => ?_
  rw [Bool.eq_iff_iff, Bool.and_eq_true, bne_iff_ne, beq_iff_eq, Registry.offsetKey]
  constructor
  · intro hlocal
    refine ⟨?_, if_pos hlocal⟩
    rintro hcache
    rw [hcache, Registry.isLocal_cacheId] at hlocal
    cases hlocal
  · rintro ⟨hcache, hkey⟩
    cases hlocal : registry.isLocal status.id with
    | true => rfl
    | false =>
      rw [hlocal, if_neg Bool.false_ne_true] at hkey
      have hfederated := registry.isFederated_eq_not_isLocal hcache
      rw [hlocal, Bool.not_false] at hfederated
      exact absurd hkey (hname status hstatus hfederated)

theorem toNat_localCap (h : knownHits (localStatuses registry board) + 1 < 2 ^ 64) :
    (localCap registry board).toNat = knownHits (localStatuses registry board) + 1 := by
  rw [localCap, UInt64.toNat_add, toNat_sumHits (Nat.lt_of_succ_lt h)]
  exact Nat.mod_eq_of_lt h

theorem toNat_capOf_of_local {status : Status} (hlocal : registry.isLocal status.id = true)
    (hname : ∀ status ∈ board, registry.isFederated status.id = true → status.id ≠ localKey)
    (h : knownHits (board.sharing registry localKey) + 1 < 2 ^ 64) :
    (capOf registry (localCap registry board) status).toNat =
      knownHits (board.sharing registry localKey) + 1 := by
  rw [← localStatuses_eq hname] at h ⊢
  rw [capOf, if_pos hlocal, toNat_localCap h]

theorem toNat_capOf_of_site {status : Status} (hlocal : registry.isLocal status.id = false)
    (h : (status.hits.getD 0).toNat + 1 < 2 ^ 64) :
    (capOf registry cap status).toNat = (status.hits.getD 0).toNat + 1 := by
  rw [capOf, hlocal, if_neg Bool.false_ne_true]
  cases hhits : status.hits with
  | none => rfl
  | some hits =>
    rw [hhits, Option.getD_some] at h
    rw [Option.map_some, Option.getD_some, Option.getD_some, UInt64.toNat_add]
    exact Nat.mod_eq_of_lt h

/-- A site has more to read if its hits lie past what it returned. -/
theorem site_hasNext_iff {status : Status} {start : UInt64} (hpos : 1 ≤ start.toNat)
    (hsum : status.count.toNat + start.toNat < 2 ^ 64) :
    (match status.hits with
      | some hits => decide (status.count + start ≤ hits)
      | none => false) = true ↔
      status.count.toNat + start.toNat ≤ (status.hits.getD 0).toNat := by
  cases status.hits with
  | none =>
    have hzero : ((none : Option UInt64).getD 0).toNat = 0 := rfl
    rw [hzero]
    constructor
    · nofun
    · omega
  | some hits =>
    rw [decide_eq_true_iff, UInt64.le_iff_toNat_le, UInt64.toNat_add, Nat.mod_eq_of_lt hsum]
    rfl

/-- There is a next page if local sites or a federated one have hits past what was read. -/
theorem hasNext_iff_of_localStatuses {tracker : PageTracker}
    (hhits : knownHits (localStatuses registry board) < 2 ^ 64)
    (hlocal : returned (localStatuses registry board) + (tracker.startOf localKey).toNat < 2 ^ 64)
    (hsites : ∀ status ∈ board, registry.isFederated status.id = true →
      1 ≤ (tracker.startOf status.id).toNat ∧
        status.count.toNat + (tracker.startOf status.id).toNat < 2 ^ 64) :
    tracker.hasNext registry board = true ↔
      returned (localStatuses registry board) + (tracker.startOf localKey).toNat ≤
          knownHits (localStatuses registry board) ∨
        ∃ status ∈ board, registry.isFederated status.id = true ∧
          status.count.toNat + (tracker.startOf status.id).toNat ≤
            (status.hits.getD 0).toNat := by
  have hreturned := Nat.lt_of_le_of_lt (Nat.le_add_right _ _) hlocal
  rw [hasNext, Bool.or_eq_true, decide_eq_true_iff,
    UInt64.le_iff_toNat_le, UInt64.toNat_add, toNat_sumHits hhits, toNat_sumCounts hreturned]
  refine or_congr ?_ ?_
  · rw [← startOf, Nat.mod_eq_of_lt hlocal]
  · rw [List.any_eq_true]
    refine exists_congr fun status => and_congr_right fun hstatus => ?_
    rw [Bool.and_eq_true]
    refine and_congr_right fun hfederated => ?_
    obtain ⟨hpos, hsum⟩ := hsites status hstatus hfederated
    exact site_hasNext_iff hpos hsum

/-- The same where no federated site has the name of the key of local sites. -/
theorem hasNext_iff {tracker : PageTracker}
    (hname : ∀ status ∈ board, registry.isFederated status.id = true → status.id ≠ localKey)
    (hhits : knownHits (board.sharing registry localKey) < 2 ^ 64)
    (hlocal : returned (board.sharing registry localKey) + (tracker.startOf localKey).toNat <
      2 ^ 64)
    (hsites : ∀ status ∈ board, registry.isFederated status.id = true →
      1 ≤ (tracker.startOf status.id).toNat ∧
        status.count.toNat + (tracker.startOf status.id).toNat < 2 ^ 64) :
    tracker.hasNext registry board = true ↔
      returned (board.sharing registry localKey) + (tracker.startOf localKey).toNat ≤
          knownHits (board.sharing registry localKey) ∨
        ∃ status ∈ board, registry.isFederated status.id = true ∧
          status.count.toNat + (tracker.startOf status.id).toNat ≤
            (status.hits.getD 0).toNat := by
  rw [← localStatuses_eq hname] at hhits hlocal ⊢
  exact hasNext_iff_of_localStatuses hhits hlocal hsites

/-! ## The tables of a tracker -/

/-- The trackers that paging leads to. -/
inductive Reached : PageTracker → Prop
  | fresh : Reached .fresh
  | beginRound {tracker : PageTracker} (h : Reached tracker) : Reached tracker.beginRound
  | advance {tracker : PageTracker} (h : Reached tracker) (selected : List String)
    (registry : Registry) (board : StatusBoard) :
    Reached (tracker.advance selected registry board)
  | retreat {tracker previous : PageTracker} (h : Reached tracker)
    (hprevious : tracker.retreat? = some previous) : Reached previous

/-- Every table of a tracker, whatever round it is for. -/
structure Each (good : Offsets → Prop) (tracker : PageTracker) : Prop where
  current : good tracker.current
  next : good tracker.next
  history : ∀ offsets ∈ tracker.history, good offsets

namespace Each

variable {good : Offsets → Prop} {tracker : PageTracker}

theorem fresh (h : good .empty) : Each good .fresh := ⟨h, h, nofun⟩

theorem beginRound (h : Each good tracker) : Each good tracker.beginRound :=
  ⟨h.next, h.next, h.history⟩

theorem advance (h : Each good tracker) {selected : List String} {board : StatusBoard}
    (hfollowing : good (tracker.following selected registry board)) :
    Each good (tracker.advance selected registry board) :=
  ⟨h.current, hfollowing, List.forall_mem_cons.2 ⟨h.next, h.history⟩⟩

theorem retreat (h : Each good tracker) {previous : PageTracker}
    (hprevious : tracker.retreat? = some previous) : Each good previous := by
  obtain ⟨current, next, _ | ⟨offsets, earlier⟩⟩ := tracker
  · cases hprevious
  · cases hprevious
    obtain ⟨hoffsets, hearlier⟩ := List.forall_mem_cons.1 h.history
    exact ⟨h.current, hoffsets, hearlier⟩

end Each

/-- Tables are in the order of their keys. -/
theorem Reached.sorted {tracker : PageTracker} (h : tracker.Reached) :
    Each Table.Sorted tracker := by
  induction h with
  | fresh => exact .fresh Table.sorted_nil
  | beginRound _ ih => exact ih.beginRound
  | advance _ selected registry board ih => exact ih.advance (sorted_following selected board)
  | retreat _ hprevious ih => exact ih.retreat hprevious

/-- No table of a tracker holds an offset before the first record. -/
theorem Reached.one_le (h : tracker.Reached) :
    Each (fun offsets => ∀ key, 1 ≤ (offsets.get key).toNat) tracker := by
  induction h with
  | fresh => exact .fresh fun _ => Nat.le_refl 1
  | beginRound _ ih => exact ih.beginRound
  | advance h selected registry board ih =>
    refine ih.advance fun key => ?_
    rw [get_following_eq_foldl h.sorted.current]
    refine List.foldlRecOn (motive := fun offset : UInt64 => 1 ≤ offset.toNat) _ _ ?_
      fun _ _ _ _ => ?_
    · rw [UInt64.toNat_max]
      exact Nat.le_max_right _ _
    · rw [onward, UInt64.toNat_max]
      exact Nat.le_max_right _ _
  | retreat _ hprevious ih => exact ih.retreat hprevious

end PageTracker

end CatalogSearch
