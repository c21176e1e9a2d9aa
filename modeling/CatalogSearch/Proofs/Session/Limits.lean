import CatalogSearch.Proofs.Cql.Restricting
import CatalogSearch.Proofs.Session.Sending

/-!
# Searches limited to a tag

A limited search restricts its filter to the records that carry a tag, and sends the
text of that.  As long as query text can say what the filter says, no catalog that
reads the text can answer with other records.  Geometries are copied into the text as
they stand, so one that is none may close its parenthesis and go on behind it.
-/

namespace CatalogSearch.Session

open Cql

/-- What is asked without a hook: the cache about the real sources, the others all the same. -/
theorem cql_of_mem_start {session : Session} {options : SearchOptions}
    (hhook : session.surroundings.hook = none) {request : Request}
    (h : request ∈ (sending (session.start options)).2) :
    request.cql =
      if request.group = .cache then
        Request.narrow (session.baseRequest options).cql
          (session.selectedSources.filter fun id => id != Source.cacheId)
      else (session.baseRequest options).cql := by
  rw [sent_start_of_starts (starts_of_mem_sent h), roundRequests_of_unhooked hhook] at h
  exact Request.cql_of_mem_split h

theorem cql_of_mem_sent {session : Session} {options : SearchOptions}
    (hhook : session.surroundings.hook = none) {request : Request}
    (h : request ∈ (sending (session.start options)).2) (hcache : request.group ≠ .cache) :
    request.cql = toText (session.sentFilter options) :=
  (cql_of_mem_start hhook h).trans (if_neg hcache)

theorem sentFilter_of_tag {options : SearchOptions} {tag : String}
    (h : options.tag? = some tag) (session : Session) :
    session.sentFilter options = session.query.filter.tagged tag := by
  rw [sentFilter, h]

/-- A search for a filter from a tree, limited to a tag, asks the sources themselves for
a conjunction with the tag, whatever else the tree says, if query text can say it.  So
nothing matches what is sent that does not carry the tag. -/
theorem limited_text_restricts {session : Session} {options : SearchOptions} {tag : String}
    {value : Json} (hvalue : ofTree value = .ok session.query.filter)
    (hempty : session.query.filter.isEmpty = false)
    (hleaves : ∀ leaf ∈ session.query.filter.leaves, leaf.Expressible)
    (htag : options.tag? = some tag) (hhook : session.surroundings.hook = none) :
    ∀ request ∈ (sending (session.start options)).2, request.group ≠ .cache →
      ∃ filter, parse request.cql = .ok (.and [filter, .carries tag]) ∧
        ∀ verdict, (Filter.and [filter, .carries tag]).holds verdict = true →
          verdict (.carries tag) = true := by
  intro request hrequest hcache
  have hnesting := Tree.nesting_of_filter hvalue
  have hlimit : session.query.filter.normalForm.nesting < nestingLimit := by
    simp only [treeLimit, nestingLimit] at hnesting ⊢
    omega
  refine ⟨session.query.filter.normalForm, ?_, ?_⟩
  · rw [cql_of_mem_sent hhook hrequest hcache, sentFilter_of_tag htag]
    exact parse_tagged hempty hleaves hlimit tag
  · intro verdict hholds
    have htagged : Filter.carries tag ∈ [session.query.filter.normalForm, .carries tag] :=
      List.mem_cons_of_mem _ List.mem_cons_self
    exact Filter.holds_of_holds_and hholds htagged

/-- A session that searches the local catalog for the filter of a tree. -/
def searching (filter : Filter) : Session :=
  .create { Query.create "query" "Search" with filter, federation := .localCatalog }
    ⟨.create "home" false, 10, 1000, none⟩

/-- A place, or a title that holds a quote and what would be query text behind it. -/
def placeOrTitle : Filter :=
  .or [.intersects "place" "POINT (1 2)", .compare "title" .ilike (.text "x' OR title = 'y")]

/-- The tree of it as an older search has it, with its types in other cases. -/
def placeOrTitleTree : Json :=
  .object
    [("filters", .array
      [.object [("property", .string "place"), ("type", .string "Intersects"),
          ("value", .string "POINT (1 2)")],
        .object [("property", .string "\"title\""), ("type", .string "ilike"),
          ("value", .string "x' OR title = 'y")]]),
      ("type", .string "or")]

theorem isGeometry_point : IsGeometry "POINT (1 2)" := by
  have hinner : Grammar.Balanced [⟨7, [], ['1'], .number (.ofInt 1)⟩,
      ⟨9, [' '], ['2'], .number (.ofInt 2)⟩] :=
    .plain nofun nofun (.plain nofun nofun .nil)
  have hshape : tokens 0 "POINT (1 2)".toList = .ok (⟨0, [], "POINT".toList, .word "POINT"⟩ ::
      ⟨6, [' '], ['('], .openParenthesis⟩ :: ([⟨7, [], ['1'], .number (.ofInt 1)⟩,
        ⟨9, [' '], ['2'], .number (.ofInt 2)⟩] ++ [⟨10, [], [')'], .closeParenthesis⟩])) := by
    decide +kernel
  exact ⟨rfl, _, _, hshape, .intro rfl rfl hinner rfl⟩

theorem placeOrTitle_restricted :
    ofTree placeOrTitleTree = .ok placeOrTitle ∧
      ∃ request ∈ (sending ((searching placeOrTitle).start { limitToDeleted := true })).2,
        ∃ filter, parse request.cql = .ok (.and [filter, .carries "deleted"]) := by
  have htree : ofTree placeOrTitleTree = .ok (searching placeOrTitle).query.filter := by
    decide +kernel
  have hleaves : ∀ leaf ∈ placeOrTitle.leaves, leaf.Expressible := by
    simp only [placeOrTitle, Filter.leaves, Filter.allLeaves, List.nil_append,
      List.cons_append, List.forall_mem_cons]
    exact ⟨isGeometry_point, ⟨trivial, fun _ => ⟨_, rfl⟩⟩, List.forall_mem_nil _⟩
  have hsent : ∃ request ∈
      (sending ((searching placeOrTitle).start { limitToDeleted := true })).2,
      request.group ≠ .cache := by decide +kernel
  obtain ⟨request, hrequest, hcache⟩ := hsent
  obtain ⟨filter, hparse, -⟩ :=
    limited_text_restricts htree rfl hleaves rfl rfl request hrequest hcache
  exact ⟨htree, request, hrequest, filter, hparse⟩

/-- A tree with a geometry that is none. -/
def forgedGeometry : Json :=
  .object [("property", .string "place"), ("type", .string "INTERSECTS"),
    ("value", .string "POINT (1 2)) OR (title = 'x'")]

/-- A geometry that is none leads out of the restriction: what is sent is read as a
disjunction, and matches a record without the tag. -/
theorem forged_geometry_escapes :
    let filter : Filter := .intersects "place" "POINT (1 2)) OR (title = 'x'"
    let read : Filter := .or [.intersects "place" "POINT (1 2)",
      .and [.equals "title" (.text "x"), .carries "deleted"]]
    let verdict : Filter → Bool := fun leaf => leaf == .intersects "place" "POINT (1 2)"
    ofTree forgedGeometry = .ok filter ∧ filter.isEmpty = false ∧
      (∃ request ∈ (sending ((searching filter).start { limitToDeleted := true })).2,
        request.group ≠ .cache ∧ parse request.cql = .ok read) ∧
      (∀ other, read ≠ .and [other, .carries "deleted"]) ∧
      read.holds verdict = true ∧ verdict (.carries "deleted") = false := by
  intro filter read verdict
  have htree : ofTree forgedGeometry = .ok filter := by decide +kernel
  have hsent : ∃ request ∈ (sending ((searching filter).start { limitToDeleted := true })).2,
      request.group ≠ .cache ∧ parse request.cql = .ok read := by decide +kernel
  have hholds : read.holds verdict = true := by decide +kernel
  have htag : verdict (.carries "deleted") = false := by decide +kernel
  exact ⟨htree, rfl, hsent, nofun, hholds, htag⟩

end CatalogSearch.Session
