import CatalogSearch.Proofs.Cql.Narrowing
import CatalogSearch.Proofs.Session.Limits

/-!
# What the sources are asked

Between the filter of a query and what the cache is asked, the filter is written, read,
narrowed and written once more, and each writing may add parentheses.  A filter that
was read from a tree stays far enough below the limit of the reader, so what is asked
still says what the filter says, limited to the tag and to the sites.
-/

namespace CatalogSearch.Session

open Cql

variable {session : Session} {value : Json}

/-- A filter from a tree, limited to a tag or not, leaves room for the sites. -/
theorem conjoinable_sentFilter (hfinite : value.Finite)
    (hvalue : ofTree value = .ok session.query.filter)
    (hempty : session.query.filter.isEmpty = false)
    (hleaves : ∀ leaf ∈ session.query.filter.leaves, leaf.Sayable) (options : SearchOptions) :
    (session.sentFilter options).Conjoinable := by
  have hdeep : session.query.filter.normalForm.nesting + 1 < nestingLimit := by
    have hnesting := Tree.nesting_of_filter hvalue
    simp only [treeLimit, nestingLimit] at hnesting ⊢
    omega
  have hquery : session.query.filter.Conjoinable :=
    ⟨hempty, expressible_of_ofTree hfinite hvalue hleaves, Nat.lt_of_succ_lt hdeep⟩
  cases htag : options.tag? with
  | none =>
    rw [sentFilter, htag]
    exact hquery
  | some tag =>
    rw [sentFilter_of_tag htag]
    exact hquery.both (Filter.conjoinable_carries tag) hdeep (Nat.one_lt_succ_succ _)

/-- The search for a filter from a tree, limited to a tag or not, asks the sources for the
normal form of what is sent, and the cache for that and the origin.  So no text that is
narrowed is unreadable, and none nests too deeply. -/
theorem texts_say_filter (hfinite : value.Finite) (hvalue : ofTree value = .ok session.query.filter)
    (hempty : session.query.filter.isEmpty = false)
    (hleaves : ∀ leaf ∈ session.query.filter.leaves, leaf.Sayable) (options : SearchOptions) :
    let said := (session.sentFilter options).normalForm
    let base := session.baseRequest options
    parse base.cql = .ok said ∧
      (∀ sites ≠ [],
        parse (Request.narrow base.cql sites) = .ok (.and [said, Request.comesFrom sites])) ∧
      (session.surroundings.hook = none →
        ∀ request ∈ (sending (session.start options)).2,
          parse request.cql = .ok (if request.group = .cache then
            .and [said, Request.comesFrom (session.selectedSources.filter (· != Source.cacheId))]
          else said)) := by
  intro said base
  have hsent := conjoinable_sentFilter hfinite hvalue hempty hleaves options
  have hbase : parse base.cql = .ok said := parse_of_conjoinable hsent
  have hnarrow : ∀ sites ≠ [],
      parse (Request.narrow base.cql sites) = .ok (.and [said, Request.comesFrom sites]) :=
    fun sites hsites => Request.parse_narrow_toText hsent hsites
  refine ⟨hbase, hnarrow, fun hhook request hrequest => ?_⟩
  rw [cql_of_mem_start hhook hrequest]
  have hsplit := hrequest
  rw [sent_start_of_starts (starts_of_mem_sent hrequest), roundRequests_of_unhooked hhook] at hsplit
  by_cases hcache : request.group = .cache
  · rw [if_pos hcache, if_pos hcache]
    exact hnarrow _ (Request.real_of_mem_split hsplit hcache)
  · rw [if_neg hcache, if_neg hcache]
    exact hbase

theorem finite_placeOrTitleTree : placeOrTitleTree.Finite := by
  refine .object (List.forall_mem_cons.2 ⟨.array ?_, List.forall_mem_singleton.2 (.string _)⟩)
  refine List.forall_mem_cons.2 ⟨.object ?_, List.forall_mem_singleton.2 (.object ?_)⟩
  all_goals
    exact List.forall_mem_cons.2 ⟨.string _, List.forall_mem_cons.2 ⟨.string _,
      List.forall_mem_singleton.2 (.string _)⟩⟩

/-- A limited search of the local catalog, with a cache, and what is asked of a site whose
name holds a quote. -/
theorem placeOrTitle_said :
    let session : Session :=
      { searching placeOrTitle with surroundings := ⟨.create "home" true, 10, 1000, none⟩ }
    let options : SearchOptions := { limitToDeleted := true }
    let said : Filter := .and [placeOrTitle, .carries "deleted"]
    ofTree placeOrTitleTree = .ok placeOrTitle ∧
      parse (session.baseRequest options).cql = .ok said ∧
      parse (Request.narrow (session.baseRequest options).cql ["o'hara", "site"]) =
        .ok (.and [said, .or [.equals "metacard_source" (.text "o'hara"),
          .equals "metacard_source" (.text "site")]]) ∧
      ∃ request ∈ (sending (session.start options)).2, request.group = .cache ∧
        parse request.cql = .ok (.and [said, .equals "metacard_source" (.text "home")]) := by
  intro session options said
  have htree : ofTree placeOrTitleTree = .ok session.query.filter := by decide +kernel
  have hleaves : ∀ leaf ∈ session.query.filter.leaves, leaf.Sayable := by
    refine List.forall_mem_cons.2 ⟨isGeometry_point, List.forall_mem_singleton.2 ?_⟩
    exact fun _ => ⟨_, rfl⟩
  have hsent : ∃ request ∈ (sending (session.start options)).2, request.group = .cache := by
    decide +kernel
  obtain ⟨hbase, hnarrow, hasked⟩ :=
    texts_say_filter finite_placeOrTitleTree htree rfl hleaves options
  obtain ⟨request, hrequest, hcache⟩ := hsent
  have hparse := hasked rfl request hrequest
  rw [if_pos hcache] at hparse
  exact ⟨htree, hbase, hnarrow _ (List.cons_ne_nil _ _), request, hrequest, hcache, hparse⟩

end CatalogSearch.Session
