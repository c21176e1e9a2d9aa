import CatalogSearch.Cql.Parser
import CatalogSearch.Cql.Tree
import CatalogSearch.Json.Reader
import CatalogSearch.Json.Writer
import CatalogSearch.Query.Basic

/-!
# Saved searches

The stored form of a query holds its filter twice: as query text and as a tree,
the tree being the text of a structured value or the value itself.  A tree that
cannot be read is rebuilt from the query text.
-/

namespace CatalogSearch

structure SavedQuery where
  id : Option String
  title : String
  cql : String
  filterTree : Option Json
  sorts : List SortKey
  federation : Option Federation
  sources : List String
  spellcheck : Bool
  phonetics : Bool

namespace SavedQuery

/-- The pieces of a text between commas. -/
def splitCommas : List Char → List (List Char)
  | [] => [[]]
  | c :: rest =>
    if c = ',' then [] :: splitCommas rest
    else
      match splitCommas rest with
      | [] => [[c]]
      | piece :: pieces => (c :: piece) :: pieces

/-- Ids come as a list, or as one text with commas between them. -/
def decodeSources : Decoder (List String)
  | .string text =>
    some <| (((splitCommas text.toList).map Text.trim).filter fun id => !id.isEmpty).map
      String.ofList
  | value => Json.listOf Json.text value

def decodeFederation : Decoder Federation := fun value =>
  (Json.caseName value).bind Federation.ofName?

def decode : Decoder SavedQuery := fun value => do
  let record ← Json.record? 9 value
  let id ← record.optional 0 "id" Json.text
  let title ← record.withDefault 1 "title" "" Json.text
  let cql ← record.withDefault 2 "cql" "" Json.text
  let filterTree ← record.optional 3 "filterTree" some
  let sorts ← record.withDefault 4 "sorts" [] (Json.listOf SortKey.decode)
  let federation ← record.optional 5 "federation" decodeFederation
  let sources ← record.withDefault 6 "sources" [] decodeSources
  let spellcheck ← record.withDefault 7 "spellcheck" false Json.boolean
  let phonetics ← record.withDefault 8 "phonetics" false Json.boolean
  pure ⟨id, title, cql, filterTree, sorts, federation, sources, spellcheck, phonetics⟩

def toJson (saved : SavedQuery) : Json :=
  .ofFields
    [("id", .ofText? saved.id), ("title", .string saved.title), ("cql", .string saved.cql),
      ("filterTree", saved.filterTree.getD .null),
      ("sorts", .array (saved.sorts.map SortKey.toJson)),
      ("federation", .ofText? (saved.federation.map Federation.name)),
      ("sources", .strings saved.sources), ("spellcheck", .bool saved.spellcheck),
      ("phonetics", .bool saved.phonetics)]

/-- How deep the text of a saved tree may nest. -/
def textLevels : Nat := 127

/-- The filter of the saved tree, if there is one that can be read. -/
def treeFilter? (saved : SavedQuery) : Option Filter :=
  match saved.filterTree with
  | none => none
  | some (.string text) => do
    let value ← Json.read? textLevels text
    (Cql.ofTree value).toOption
  | some value => (Cql.ofTree value).toOption

/-- The filter of a saved search.  Without a readable tree it is that of the text,
and without text it is that of a new query. -/
def filter (saved : SavedQuery) : Except Cql.TextError Filter :=
  match saved.treeFilter? with
  | some filter => .ok filter
  | none => if Text.isBlankString saved.cql then .ok .anyText else Cql.parse saved.cql

end SavedQuery

namespace Query

/-- The query of a saved search, under its own id unless that is blank. -/
def ofSaved (freshId : String) (saved : SavedQuery) : Except Cql.TextError Query :=
  saved.filter.map fun filter =>
    { id := (saved.id.filter fun id => !Text.isBlankString id).getD freshId
      title := saved.title
      filter
      sorts := if saved.sorts.isEmpty then [.lastModified] else saved.sorts
      federation := saved.federation.getD .enterprise
      sources := saved.sources
      spellcheck := saved.spellcheck
      phonetics := saved.phonetics
      outdated := false }

def toSaved (query : Query) : SavedQuery :=
  { id := some query.id
    title := query.title
    cql := query.cql
    filterTree := some (.string (Cql.toTree query.filter).compress)
    sorts := query.sorts
    federation := some query.federation
    sources := query.sources
    spellcheck := query.spellcheck
    phonetics := query.phonetics }

end Query

end CatalogSearch
