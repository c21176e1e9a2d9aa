import CatalogSearch.Proofs.Session.Board

/-!
# Merging results

What a view holds of an id is a matter of the results of that id alone, in the order in
which they arrived: the first one, until one comes that is not filed under the cache.
When it is that results are merged, and how they are sorted, makes no difference.
-/

namespace CatalogSearch

namespace Result

/-- A record after a result came: a cached copy of the same id gives way to a result that
is none, and passes its arrival on. -/
def giveWay (record result : Result) : Result :=
  if record.id = result.id ∧ record.isCached = true ∧ result.isCached = false then
    { result with arrival := record.arrival }
  else record

theorem id_giveWay (record result : Result) : (record.giveWay result).id = record.id := by
  unfold giveWay
  split
  · rename_i h
    exact h.1.symm
  · rfl

/-- A record that is no cached copy stays. -/
theorem giveWay_of_real {record : Result} (h : record.isCached = false) (result : Result) :
    record.giveWay result = record := by
  rw [giveWay, if_neg]
  rintro ⟨-, hcached, -⟩
  rw [h] at hcached
  cases hcached

/-- A cached copy changes nothing. -/
theorem giveWay_cached (record : Result) {result : Result} (h : result.isCached = true) :
    record.giveWay result = record := by
  rw [giveWay, if_neg]
  rintro ⟨-, -, hreal⟩
  rw [h] at hreal
  cases hreal

theorem giveWay_self (result : Result) : result.giveWay result = result := by
  cases h : result.isCached with
  | false => exact giveWay_of_real h result
  | true => exact giveWay_cached result h

/-- What stands of the results of one id, where one of them may be held before. -/
def standing (held : Option Result) (results : List Result) : Option Result :=
  results.foldl (fun held result => some ((held.getD result).giveWay result)) held

theorem standing_append (held : Option Result) (results more : List Result) :
    standing held (results ++ more) = standing (standing held results) more :=
  List.foldl_append

/-- One of the results stands, if there is any. -/
theorem isSome_standing (held : Option Result) (results : List Result) :
    (standing held results).isSome = (held.isSome || !results.isEmpty) := by
  induction results generalizing held with
  | nil => exact (Bool.or_false _).symm
  | cons result results ih =>
    rw [standing, List.foldl_cons, ← standing, ih]
    simp

/-- Among cached copies the first stands. -/
theorem standing_of_cached {id : String} {held : Option Result} {results : List Result}
    (hheld : ∀ record, held = some record → record.id = id ∧ record.isCached = true)
    (h : ∀ result ∈ results, result.id = id ∧ result.isCached = true) :
    ∀ record, standing held results = some record → record.id = id ∧ record.isCached = true := by
  induction results generalizing held with
  | nil => exact hheld
  | cons result results ih =>
    obtain ⟨hresult, hrest⟩ := List.forall_mem_cons.1 h
    refine ih (fun record hrecord => ?_) hrest
    rw [← Option.some.inj hrecord, giveWay_cached _ hresult.2]
    cases held with
    | none => exact hresult
    | some record => exact hheld record rfl

/-- A record that is no cached copy stands, whatever comes. -/
theorem standing_of_real {record : Result} (h : record.isCached = false)
    (results : List Result) : standing (some record) results = some record := by
  induction results with
  | nil => rfl
  | cons result results ih =>
    rw [standing, List.foldl_cons, Option.getD_some, giveWay_of_real h]
    exact ih

/-- The first result that is no cached copy stands. -/
theorem metacard_standing {id : String} {held : Option Result} {before after : List Result}
    {result : Result}
    (hheld : ∀ record, held = some record → record.id = id ∧ record.isCached = true)
    (hbefore : ∀ other ∈ before, other.id = id ∧ other.isCached = true)
    (hid : result.id = id) (hresult : result.isCached = false) :
    (standing held (before ++ result :: after)).map Result.metacard = some result.metacard := by
  have hcached := standing_of_cached hheld hbefore
  rw [standing_append]
  cases hstanding : standing held before with
  | none =>
    change Option.map _ (standing (some (result.giveWay result)) after) = _
    rw [giveWay_self, standing_of_real hresult]
    rfl
  | some record =>
    obtain ⟨hrecord, hgives⟩ := hcached record hstanding
    have hway : record.giveWay result = { result with arrival := record.arrival } :=
      if_pos ⟨hrecord.trans hid.symm, hgives, hresult⟩
    have hreal : ({ result with arrival := record.arrival } : Result).isCached = false := hresult
    change Option.map _ (standing (some (record.giveWay result)) after) = _
    rw [hway, standing_of_real hreal]
    rfl

end Result

namespace View

open Result

/-! ## Taking results in -/

/-- Taking a result in is entering it under its id. -/
theorem absorb_eq_enter (records : List Result) (result : Result) :
    absorb records result =
      Roster.enter Result.id result.id result (fun record => record.giveWay result) records := by
  induction records with
  | nil => exact congrArg (fun record => [record]) (giveWay_self result).symm
  | cons record rest ih =>
    rw [absorb, Roster.enter, ih]
    split
    · rename_i hid
      cases hrecord : record.isCached <;> cases hresult : result.isCached <;>
        simp [giveWay, hid, hrecord, hresult]
    · rfl

theorem nodup_absorb {records : List Result} (h : (records.map Result.id).Nodup)
    (result : Result) : ((absorb records result).map Result.id).Nodup := by
  rw [absorb_eq_enter]
  exact Roster.nodup_map_enter Result.id rfl (fun record => id_giveWay record result) h

theorem nodup_foldl_absorb {records : List Result} (h : (records.map Result.id).Nodup)
    (queue : List Result) : ((queue.foldl absorb records).map Result.id).Nodup := by
  induction queue generalizing records with
  | nil => exact h
  | cons result queue ih => exact ih (nodup_absorb h result)

/-- What is found of an id after some results were taken in. -/
theorem find?_foldl_absorb (id : String) (queue records : List Result) :
    Roster.find? Result.id id (queue.foldl absorb records) =
      standing (Roster.find? Result.id id records)
        (queue.filter fun result => result.id == id) := by
  induction queue generalizing records with
  | nil => rfl
  | cons result queue ih =>
    rw [List.foldl_cons, ih, absorb_eq_enter]
    by_cases hid : result.id = id
    · subst hid
      rw [List.filter_cons_of_pos (by simp),
        Roster.find?_enter_self Result.id result.id result _ rfl
          (fun record => id_giveWay record result)]
      rfl
    · rw [List.filter_cons_of_neg (by simpa using hid), Roster.find?_enter_other Result.id
        (Ne.symm hid) result _ rfl (fun record => id_giveWay record result)]

theorem arrange_perm (sorts : List SortKey) (records : List Result) :
    (arrange sorts records).Perm records :=
  List.mergeSort_perm ..

/-! ## What a view holds -/

/-- No two records of a view are of one id. -/
def Distinct (view : View) : Prop := (view.records.map Result.id).Nodup

/-- What a view holds of an id, as soon as all that is queued is merged. -/
def held (view : View) (id : String) : Option Result :=
  Roster.find? Result.id id (view.queue.foldl absorb view.records)

/-- What comes to a view in the course of a round. -/
inductive Intake
  | deliver (asked : String) (items : List Answer.Item)
  | merge
  | setSorts (sorts : List SortKey)

def take (view : View) : Intake → View
  | .deliver asked items => view.enqueue asked items
  | .merge => view.merge
  | .setSorts sorts => view.setSorts sorts

def takeAll (view : View) (intakes : List Intake) : View := intakes.foldl take view

/-- The results that arrive, in order. -/
def arrived (view : View) : List Intake → List Result
  | [] => []
  | .deliver asked items :: rest =>
    arriving asked view.arrivals items ++ (view.enqueue asked items).arrived rest
  | .merge :: rest => view.merge.arrived rest
  | .setSorts sorts :: rest => (view.setSorts sorts).arrived rest

variable {view : View}

theorem Distinct.merge (h : view.Distinct) : view.merge.Distinct :=
  ((arrange_perm _ _).map Result.id).nodup_iff.2 (nodup_foldl_absorb h view.queue)

theorem Distinct.setSorts (h : view.Distinct) (sorts : List SortKey) :
    (view.setSorts sorts).Distinct :=
  ((arrange_perm _ _).map Result.id).nodup_iff.2 h

theorem Distinct.take (h : view.Distinct) (intake : Intake) : (view.take intake).Distinct := by
  cases intake with
  | deliver asked items => exact h
  | merge => exact h.merge
  | setSorts sorts => exact h.setSorts sorts

theorem Distinct.takeAll (h : view.Distinct) (intakes : List Intake) :
    (view.takeAll intakes).Distinct := by
  induction intakes generalizing view with
  | nil => exact h
  | cons intake intakes ih => exact ih (h.take intake)

theorem held_enqueue (view : View) (asked : String) (items : List Answer.Item) (id : String) :
    (view.enqueue asked items).held id =
      standing (view.held id)
        ((arriving asked view.arrivals items).filter fun result => result.id == id) := by
  rw [held, held, enqueue, List.foldl_append, find?_foldl_absorb]

/-- Merging shows what was held. -/
theorem find?_records_merge (h : view.Distinct) (id : String) :
    Roster.find? Result.id id view.merge.records = view.held id :=
  Roster.find?_perm (arrange_perm _ _) h.merge id

theorem held_setSorts (h : view.Distinct) (sorts : List SortKey) (id : String) :
    (view.setSorts sorts).held id = view.held id := by
  have hperm : (arrange sorts view.records).Perm view.records := arrange_perm _ _
  rw [held, held, find?_foldl_absorb, find?_foldl_absorb]
  exact congrArg (standing · _) (Roster.find?_perm hperm (h.setSorts sorts) id)

/-- What is held of an id depends on the results that arrive only, not on when they are
merged or how they are sorted. -/
theorem held_takeAll (h : view.Distinct) (intakes : List Intake) (id : String) :
    (view.takeAll intakes).held id =
      standing (view.held id) ((view.arrived intakes).filter fun result => result.id == id) := by
  induction intakes generalizing view with
  | nil => rfl
  | cons intake intakes ih =>
    change ((view.take intake).takeAll intakes).held id = _
    rw [ih (h.take intake)]
    cases intake with
    | deliver asked items =>
      rw [take, held_enqueue, ← standing_append, ← List.filter_append]
      rfl
    | merge =>
      rw [take, ← find?_records_merge h]
      rfl
    | setSorts sorts =>
      rw [take, held_setSorts h]
      rfl

/-! ## The ids in view -/

theorem contains_eq (view : View) (id : String) :
    view.contains id = (Roster.find? Result.id id view.records).isSome :=
  (Roster.isSome_find? Result.id id view.records).symm

/-- Merging shows the ids that were held. -/
theorem contains_merge (view : View) (id : String) :
    view.merge.contains id = (view.held id).isSome := by
  have hperm : view.merge.records.Perm (view.queue.foldl absorb view.records) :=
    arrange_perm _ _
  rw [held, Roster.isSome_find?, contains]
  exact hperm.any_eq

theorem any_id_arriving (asked : String) (arrival : Nat) (items : List Answer.Item)
    (id : String) :
    ((arriving asked arrival items).any fun result => result.id == id) =
      items.any fun item => item.metacard.id? == some id := by
  induction items generalizing arrival with
  | nil => rfl
  | cons item items ih =>
    rw [arriving, List.any_cons]
    cases hid : item.metacard.id? with
    | none => exact ih arrival
    | some other =>
      have hother : (⟨item.metacard, filedUnder asked item.metacard, item.relevance,
          item.distance, arrival⟩ : Result).id = other := by
        rw [Result.id, hid]
        rfl
      change List.any (_ :: _) _ = _
      rw [List.any_cons, hother, ih]
      rfl

theorem held_merge (h : view.Distinct) (id : String) : view.merge.held id = view.held id :=
  find?_records_merge h id

/-- The ids of some items join those that are held. -/
theorem isSome_held_enqueue (view : View) (asked : String) (items : List Answer.Item)
    (id : String) :
    ((view.enqueue asked items).held id).isSome =
      ((view.held id).isSome || items.any fun item => item.metacard.id? == some id) := by
  rw [held_enqueue, isSome_standing, ← any_id_arriving asked view.arrivals]
  congr 1
  rw [Bool.eq_iff_iff]
  simp

/-- Where nothing is queued, the ids of some items join those in view as soon as the items are
merged. -/
theorem contains_merge_enqueue (h : view.queue = []) (asked : String)
    (items : List Answer.Item) (id : String) :
    (view.enqueue asked items).merge.contains id =
      (view.contains id || items.any fun item => item.metacard.id? == some id) := by
  have hheld : view.held id = Roster.find? Result.id id view.records := by rw [held, h]; rfl
  rw [contains_merge, isSome_held_enqueue, hheld, ← contains_eq]

/-! ## Deliveries -/

/-- An item that was delivered for the first source of a request. -/
structure Delivery where
  asked : String
  item : Answer.Item

/-- The items that are delivered, in order. -/
def deliveries (intakes : List Intake) : List Delivery :=
  intakes.flatMap fun intake =>
    match intake with
    | .deliver asked items => items.map (Delivery.mk asked)
    | .merge | .setSorts _ => []

namespace Delivery

/-- The metacard of a delivery with what it is filed under, if it has an id. -/
def filing? (delivery : Delivery) : Option (Metacard × String) :=
  if delivery.item.metacard.id?.isSome then
    some (delivery.item.metacard, filedUnder delivery.asked delivery.item.metacard)
  else none

/-- A record of an id that another source than the cache delivers, in a metacard that does
not name the cache as its source. -/
def isReal (id : String) (delivery : Delivery) : Bool :=
  delivery.asked != Source.cacheId &&
    delivery.item.metacard.sourceId? != some Source.cacheId &&
    delivery.item.metacard.id? == some id

end Delivery

/-- What a result is of, and what it is filed under. -/
def filing (result : Result) : Metacard × String := (result.metacard, result.source)

theorem map_filing_arriving (asked : String) (arrival : Nat) (items : List Answer.Item) :
    (arriving asked arrival items).map filing =
      (items.map (Delivery.mk asked)).filterMap Delivery.filing? := by
  induction items generalizing arrival with
  | nil => rfl
  | cons item items ih =>
    rw [arriving, List.map_cons]
    cases hid : item.metacard.id? with
    | none =>
      have hnone : (Delivery.mk asked item).filing? = none := by simp [Delivery.filing?, hid]
      rw [List.filterMap_cons_none hnone]
      exact ih arrival
    | some id =>
      have hsome : (Delivery.mk asked item).filing? =
          some (item.metacard, filedUnder asked item.metacard) := by simp [Delivery.filing?, hid]
      rw [List.filterMap_cons_some hsome, ← ih (arrival + 1)]
      rfl

theorem map_filing_arrived (view : View) (intakes : List Intake) :
    (view.arrived intakes).map filing = (deliveries intakes).filterMap Delivery.filing? := by
  induction intakes generalizing view with
  | nil => rfl
  | cons intake intakes ih =>
    cases intake with
    | deliver asked items =>
      rw [arrived, List.map_append, map_filing_arriving, ih, ← List.filterMap_append]
      rfl
    | merge => exact ih view.merge
    | setSorts sorts => exact ih (view.setSorts sorts)

theorem filedUnder_eq_cacheId_iff {asked : String} {metacard : Metacard} :
    filedUnder asked metacard = Source.cacheId ↔
      asked = Source.cacheId ∨ metacard.sourceId? = some Source.cacheId := by
  unfold filedUnder
  by_cases hasked : asked = Source.cacheId
  · simp [hasked]
  · cases hsource : metacard.sourceId? <;> simp [hasked]

/-- What a delivery says of the result that arrives by it. -/
theorem of_filing? {delivery : Delivery} {result : Result}
    (h : delivery.filing? = some (filing result)) :
    delivery.item.metacard = result.metacard ∧
      delivery.item.metacard.id? = some result.id ∧
      delivery.isReal result.id = !result.isCached := by
  obtain ⟨hsome, hfiling⟩ := Option.ite_none_right_eq_some.1 h
  obtain ⟨hmetacard, hsource⟩ := Prod.mk.inj (Option.some.inj hfiling)
  have hid : delivery.item.metacard.id? = some result.id := by
    obtain ⟨id, hid⟩ := Option.isSome_iff_exists.1 hsome
    rw [Result.id, ← hmetacard, hid]
    rfl
  refine ⟨hmetacard, hid, ?_⟩
  rw [Bool.eq_iff_iff, Bool.not_eq_true', Result.isCached, ← hsource, beq_eq_false_iff_ne,
    Ne, filedUnder_eq_cacheId_iff, not_or]
  simp [Delivery.isReal, hid]

/-- Where some deliveries are split at the first record of an id that is no cached copy, so
are the results that arrive. -/
theorem exists_arrived_split {intakes : List Intake} {id : String} {delivery : Delivery}
    (h : (deliveries intakes).find? (Delivery.isReal id) = some delivery) (view : View) :
    ∃ before result after, view.arrived intakes = before ++ result :: after ∧
      (∀ other ∈ before, other.id = id → other.isCached = true) ∧
      result.id = id ∧ result.isCached = false ∧
      result.metacard = delivery.item.metacard := by
  obtain ⟨hreal, earlier, later, hsplit, hearlier⟩ := List.find?_eq_some_iff_append.1 h
  have hid : delivery.item.metacard.id? = some id := by
    rw [Delivery.isReal, Bool.and_eq_true, beq_iff_eq] at hreal
    exact hreal.2
  have hsome : delivery.filing? =
      some (delivery.item.metacard, filedUnder delivery.asked delivery.item.metacard) := by
    rw [Delivery.filing?, hid]
    rfl
  have hmap := map_filing_arrived view intakes
  rw [hsplit, List.filterMap_append, List.filterMap_cons_some hsome] at hmap
  obtain ⟨before, rest, harrived, hbefore, hrest⟩ := List.map_eq_append_iff.1 hmap
  -- Items without an id leave no result, so the list of results is split where `filing?` is.
  obtain ⟨result, after, rfl, hresult, -⟩ := List.map_eq_cons_iff.1 hrest
  obtain ⟨hmetacard, hid', hcached⟩ := of_filing? (hsome.trans (congrArg some hresult.symm))
  obtain rfl : id = result.id := Option.some.inj (hid.symm.trans hid')
  refine ⟨before, result, after, harrived, ?_, rfl, ?_, hmetacard.symm⟩
  · intro other hother hsame
    have hmem : filing other ∈ earlier.filterMap Delivery.filing? :=
      hbefore ▸ List.mem_map_of_mem hother
    obtain ⟨first, hfirst, hfiling⟩ := List.mem_filterMap.1 hmem
    obtain ⟨-, -, hcached⟩ := of_filing? hfiling
    have hnot := hearlier first hfirst
    rw [← hsame, hcached, Bool.not_not] at hnot
    exact hnot
  · rw [hreal] at hcached
    simpa using hcached.symm

/-- Whatever is delivered before, between and after, and whenever it is merged and however
sorted: of an id that some source but the cache delivers, in a metacard that does not name
the cache as its own source, the view finally holds one record, and that has the metacard of
the first such delivery. -/
theorem real_delivery_is_shown {sorts : List SortKey} {intakes : List Intake} {id : String}
    {delivery : Delivery}
    (h : (deliveries intakes).find? (Delivery.isReal id) = some delivery) :
    let records := ((View.empty sorts).takeAll intakes).merge.records
    ∃ record ∈ records, record.id = id ∧ record.metacard = delivery.item.metacard ∧
      ∀ other ∈ records, other.id = id → other = record := by
  intro records
  have hempty : (View.empty sorts).Distinct := List.nodup_nil
  have hdistinct := hempty.takeAll intakes
  obtain ⟨before, result, after, harrived, hbefore, hid, hreal, hmetacard⟩ :=
    exists_arrived_split h (View.empty sorts)
  have hheld : Roster.find? Result.id id records = standing none
      (before.filter (fun other => other.id == id) ++
        result :: after.filter fun other => other.id == id) := by
    rw [find?_records_merge hdistinct, held_takeAll hempty, harrived, List.filter_append,
      List.filter_cons_of_pos (by simpa using hid)]
    rfl
  have hcached : ∀ other ∈ before.filter (fun other => other.id == id),
      other.id = id ∧ other.isCached = true := by
    intro other hother
    obtain ⟨hmem, hsame⟩ := List.mem_filter.1 hother
    exact ⟨eq_of_beq hsame, hbefore other hmem (eq_of_beq hsame)⟩
  have hnone : ∀ record, (none : Option Result) = some record →
      record.id = id ∧ record.isCached = true := nofun
  have hstanding : (standing none (before.filter (fun other => other.id == id) ++
      result :: after.filter fun other => other.id == id)).map Result.metacard =
        some result.metacard := metacard_standing hnone hcached hid hreal
  rw [← hheld] at hstanding
  obtain ⟨record, hrecord, hsame⟩ := Option.map_eq_some_iff.1 hstanding
  obtain ⟨hmem, hrecordId⟩ := Roster.mem_of_find? Result.id hrecord
  refine ⟨record, hmem, hrecordId, hsame.trans hmetacard, fun other hother hotherId => ?_⟩
  have hfound := Roster.find?_of_mem Result.id hdistinct.merge hother
  rw [hotherId, hrecord] at hfound
  exact (Option.some.inj hfound).symm

/-- A metacard of an id with a title, which may name the source that it was collected from. -/
def titled (id title : String) (source : Option String) : Answer.Item :=
  ⟨⟨Table.ofList ([("id", .string id), ("title", .string title)] ++
    (source.map fun source => ("source-id", Json.string source)).toList)⟩, none, none⟩

/-- The titles of the records of an id. -/
def titlesOf (view : View) (id : String) : List (Option String) :=
  (view.records.filter fun record => record.id == id).map fun record =>
    (record.metacard.property? "title").bind Json.asString?

theorem fresh_title_is_shown :
    let intakes : List Intake :=
      [.deliver "cache" [titled "a" "stale" (some "site")], .merge,
        .deliver "site" [titled "b" "other" none, titled "a" "fresh" none],
        .deliver "cache" [titled "a" "older" none], .merge,
        .deliver "home" [titled "a" "later" (some "harvested")]]
    let records := ((View.empty [SortKey.lastModified]).takeAll intakes).merge.records
    (deliveries intakes).find? (Delivery.isReal "a") =
        some ⟨"site", titled "a" "fresh" none⟩ ∧
      ∃ record ∈ records, record.id = "a" ∧
        record.metacard = (titled "a" "fresh" none).metacard := by
  intro intakes records
  have hfirst : (deliveries intakes).find? (Delivery.isReal "a") =
      some ⟨"site", titled "a" "fresh" none⟩ := by rfl
  obtain ⟨record, hrecord, hid, hmetacard, -⟩ := real_delivery_is_shown hfirst
  exact ⟨hfirst, record, hrecord, hid, hmetacard⟩

/-- A record that a site delivers counts as a cached copy if its metacard names the cache as
its source, and does not take the place of one: the view goes on to hold what the cache had. -/
theorem labelled_delivery_is_hidden :
    let intakes : List Intake :=
      [.deliver "cache" [titled "a" "stale" none], .merge,
        .deliver "site" [titled "a" "fresh" (some "cache")]]
    (deliveries intakes).find? (fun delivery =>
        delivery.asked != Source.cacheId && delivery.item.metacard.id? == some "a") =
      some ⟨"site", titled "a" "fresh" (some "cache")⟩ ∧
    ((View.empty []).takeAll intakes).merge.titlesOf "a" = [some "stale"] := by
  intro intakes
  refine ⟨by rfl, ?_⟩
  decide +kernel

end View

end CatalogSearch
