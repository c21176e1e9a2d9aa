import CatalogSearch.Cql.Tree
import CatalogSearch.Proofs.Cql.NormalForm
import CatalogSearch.Proofs.Json.Values
import CatalogSearch.Proofs.Trimming

/-!
# Stored trees of filters

The tree that a filter is stored as stands for the filter, as far as nodes may nest.  A
level of nodes takes two levels of arrays and objects, but for the last: a predicate takes
one there, and a group two even without operands.
-/

namespace CatalogSearch

namespace Filter

/-! ## Levels -/

/-- The filters that a filter is directly made of. -/
def operands : Filter → List Filter
  | and operands => operands
  | or operands => operands
  | not operand => [operand]
  | _ => []

mutual

/-- On how many levels there are nodes, the filter itself being the first. -/
def levels : Filter → Nat
  | and operands => operandsLevels operands + 1
  | or operands => operandsLevels operands + 1
  | not operand => levels operand + 1
  | _ => 1

def operandsLevels : List Filter → Nat
  | [] => 0
  | operand :: operands => max (levels operand) (operandsLevels operands)

end

/-- The nodes on a level, counted from one. -/
def nodesOn : Nat → Filter → List Filter
  | 0, _ => []
  | 1, filter => [filter]
  | level + 2, filter => filter.operands.flatMap (nodesOn (level + 1))

def IsEmptyGroup (filter : Filter) : Prop := filter = and [] ∨ filter = or []

/-- Whether a group without operands is among the nodes on a level. -/
def HasEmptyGroupOn (level : Nat) (filter : Filter) : Prop :=
  ∃ node ∈ filter.nodesOn level, node.IsEmptyGroup

instance (filter : Filter) : Decidable filter.IsEmptyGroup :=
  inferInstanceAs (Decidable (_ ∨ _))

instance (level : Nat) (filter : Filter) : Decidable (filter.HasEmptyGroupOn level) :=
  inferInstanceAs (Decidable (∃ node ∈ filter.nodesOn level, node.IsEmptyGroup))

theorem levels_eq (filter : Filter) : filter.levels = operandsLevels filter.operands + 1 := by
  cases filter with
  | not operand => simp [levels, operands, operandsLevels]
  | _ => rfl

theorem operandsLevels_le_iff {operands : List Filter} {bound : Nat} :
    operandsLevels operands ≤ bound ↔ ∀ operand ∈ operands, operand.levels ≤ bound := by
  induction operands with
  | nil => simp [operandsLevels]
  | cons operand operands ih => rw [operandsLevels, Nat.max_le, ih, List.forall_mem_cons]

/-- A filter has a property if it has it whenever all of its operands do. -/
theorem induction {motive : Filter → Prop}
    (step : ∀ filter, (∀ operand ∈ filter.operands, motive operand) → motive filter)
    (filter : Filter) : motive filter := by
  have hlevels : ∀ bound, ∀ filter : Filter, filter.levels ≤ bound → motive filter := by
    intro bound
    induction bound with
    | zero =>
      intro filter h
      rw [levels_eq] at h
      cases h
    | succ bound ih =>
      intro filter h
      rw [levels_eq, Nat.succ_le_succ_iff, operandsLevels_le_iff] at h
      exact step filter fun operand hoperand => ih operand (h operand hoperand)
  exact hlevels _ filter (Nat.le_refl _)

theorem hasEmptyGroupOn_one {filter : Filter} :
    filter.HasEmptyGroupOn 1 ↔ filter.IsEmptyGroup := by
  simp [HasEmptyGroupOn, nodesOn]

theorem hasEmptyGroupOn_succ_succ {level : Nat} {filter : Filter} :
    filter.HasEmptyGroupOn (level + 2) ↔
      ∃ operand ∈ filter.operands, operand.HasEmptyGroupOn (level + 1) := by
  simp only [HasEmptyGroupOn, nodesOn, List.mem_flatMap]
  constructor
  · rintro ⟨node, ⟨operand, hoperand, hnode⟩, hempty⟩
    exact ⟨operand, hoperand, node, hnode, hempty⟩
  · rintro ⟨operand, hoperand, node, hnode, hempty⟩
    exact ⟨node, ⟨operand, hoperand, hnode⟩, hempty⟩

/-! ## Leaves -/

theorem allLeaves_eq_flatMap (operands : List Filter) :
    allLeaves operands = operands.flatMap leaves := by
  induction operands with
  | nil => rfl
  | cons operand operands ih => rw [allLeaves, ih, List.flatMap_cons]

theorem mem_leaves_of_mem_operands {filter operand leaf : Filter}
    (hoperand : operand ∈ filter.operands) (h : leaf ∈ operand.leaves) : leaf ∈ filter.leaves := by
  have hall : leaf ∈ allLeaves filter.operands := by
    rw [allLeaves_eq_flatMap]
    exact List.mem_flatMap_of_mem hoperand h
  cases filter with
  | and operands => exact hall
  | or operands => exact hall
  | not other =>
    obtain rfl := List.mem_singleton.1 hoperand
    exact h
  | _ => cases hoperand

/-- The property that a leaf speaks of. -/
def property? : Filter → Option String
  | compare property _ _ => some property
  | between property _ _ => some property
  | isNull property => some property
  | before property _ => some property
  | after property _ => some property
  | during property _ _ => some property
  | intersects property _ => some property
  | within property _ _ _ => some property
  | _ => none

/-! ## Names -/

/-- The names of the properties that a filter speaks of. -/
def names (filter : Filter) : List String := filter.leaves.filterMap property?

mutual

/-- The filter with other names for its properties. -/
def renamed (rename : String → String) : Filter → Filter
  | and operands => and (renamedAll rename operands)
  | or operands => or (renamedAll rename operands)
  | not operand => not (renamed rename operand)
  | compare property comparison value => compare (rename property) comparison value
  | between property lower upper => between (rename property) lower upper
  | isNull property => isNull (rename property)
  | before property instant => before (rename property) instant
  | after property instant => after (rename property) instant
  | during property start finish => during (rename property) start finish
  | intersects property geometry => intersects (rename property) geometry
  | within property geometry distance units => within (rename property) geometry distance units

def renamedAll (rename : String → String) : List Filter → List Filter
  | [] => []
  | operand :: operands => renamed rename operand :: renamedAll rename operands

end

theorem renamedAll_eq_map (rename : String → String) (operands : List Filter) :
    renamedAll rename operands = operands.map (renamed rename) := by
  induction operands with
  | nil => rfl
  | cons operand operands ih => rw [renamedAll, ih, List.map_cons]

theorem names_of_property? {filter : Filter} {name : String} (h : filter.property? = some name) :
    filter.names = [name] := by
  have hleaves : filter.leaves = [filter] := by
    cases filter <;> first | rfl | cases h
  rw [names, hleaves, List.filterMap_cons_some h, List.filterMap_nil]

/-- A filter made of others has their names. -/
theorem names_eq_flatMap {filter : Filter} (h : filter.property? = none) :
    filter.names = filter.operands.flatMap names := by
  have hleaves : filter.leaves = filter.operands.flatMap leaves := by
    cases filter with
    | and operands => exact allLeaves_eq_flatMap operands
    | or operands => exact allLeaves_eq_flatMap operands
    | not operand => exact (List.flatMap_singleton leaves operand).symm
    | _ => cases h
  rw [names, hleaves, List.filterMap_flatMap]
  rfl

theorem forall_mem_names_iff {filter : Filter} {p : String → Prop} (h : filter.property? = none) :
    (∀ name ∈ filter.names, p name) ↔
      ∀ operand ∈ filter.operands, ∀ name ∈ operand.names, p name := by
  rw [names_eq_flatMap h, List.forall_mem_flatMap]

/-- Renaming changes a filter just if it changes one of its names. -/
theorem renamed_eq_self_iff {rename : String → String} {filter : Filter} :
    filter.renamed rename = filter ↔ ∀ name ∈ filter.names, rename name = name := by
  induction filter using Filter.induction with
  | step filter ih =>
    have hoperands : filter.operands.map (renamed rename) = filter.operands ↔
        ∀ operand ∈ filter.operands, ∀ name ∈ operand.names, rename name = name := calc
      _ ↔ filter.operands.map (renamed rename) = filter.operands.map id := by rw [List.map_id]
      _ ↔ ∀ operand ∈ filter.operands, operand.renamed rename = operand := List.map_inj_left
      _ ↔ _ := forall₂_congr ih
    cases filter with
    | and operands =>
      rw [renamed, renamedAll_eq_map, and.injEq, forall_mem_names_iff rfl]
      exact hoperands
    | or operands =>
      rw [renamed, renamedAll_eq_map, or.injEq, forall_mem_names_iff rfl]
      exact hoperands
    | not operand =>
      rw [renamed, not.injEq, forall_mem_names_iff rfl, ← List.singleton_inj]
      exact hoperands
    | _ =>
      rw [names_of_property? rfl, List.forall_mem_singleton]
      simp [renamed]

end Filter

/-- The number that a literal is, if it is one. -/
def Literal.numbers : Literal → List Double
  | number value => [value]
  | _ => []

/-- The numbers in a leaf. -/
def Filter.numbers : Filter → List Double
  | compare _ _ value => value.numbers
  | between _ lower upper => lower.numbers ++ upper.numbers
  | within _ _ distance _ => [distance]
  | _ => []

namespace Cql

/-- A name that is stored as it is: there is one, with no white space around it, and it is not
put between quotes. -/
structure KeptName (name : String) : Prop where
  ne_empty : name ≠ ""
  not_blank_first : ∀ c ∈ name.toList.head?, Text.isBlank c = false
  not_blank_last : ∀ c ∈ name.toList.getLast?, Text.isBlank c = false
  not_quoted : ¬∃ inner, name.toList = '"' :: (inner ++ ['"'])

/-- A finite double that is read from a structured document as it was written there. -/
structure KeptNumber (x : Double) : Prop where
  isFinite : x.isFinite = true
  reads : Json.readNumber? x.marked = some (.real x, [])

/-- A leaf with nothing in it that a stored tree would change. -/
structure Storable (leaf : Filter) : Prop where
  name : ∀ name ∈ leaf.property?, KeptName name
  numbers : ∀ x ∈ leaf.numbers, KeptNumber x

/-! ## Fields of nodes -/

theorem KeptName.trim {name : String} (h : KeptName name) :
    Text.trim name.toList = name.toList :=
  Text.trim_eq_self_iff.2 ⟨h.not_blank_first, h.not_blank_last⟩

theorem KeptName.unwrapName {name : String} (h : KeptName name) :
    Tree.unwrapName name.toList = name.toList := by
  unfold Tree.unwrapName
  split
  · rename_i rest hname
    split
    · rename_i hlast
      obtain ⟨inner, rfl⟩ := List.getLast?_eq_some_iff.1 hlast
      exact absurd ⟨inner, hname⟩ h.not_quoted
    · rfl
  · rfl

theorem canonical_literal {value : Literal} (h : ∀ x ∈ value.numbers, KeptNumber x) :
    (Literal.toJson value).Canonical := by
  cases value with
  | text value => exact .string value
  | number x =>
    rw [Literal.toJson, Json.ofDouble, if_pos (h x List.mem_cons_self).isFinite]
    exact .number (h x List.mem_cons_self).reads
  | bool value => exact .bool value

theorem depth_literal (value : Literal) : (Literal.toJson value).depth = 0 := by
  cases value with
  | number x =>
    rw [Literal.toJson, Json.ofDouble]
    split <;> rfl
  | _ => rfl

/-! ## Nodes -/

theorem groupNode_eq (type : String) (trees : List Json) :
    groupNode type trees = .object [("filters", .array trees), ("type", .string type)] := by
  have hne : "type" ≠ "filters" := by decide
  have hlt : "filters" < "type" := by decide
  rw [groupNode, Json.ofFields, Table.ofList, List.foldl_cons, List.foldl_cons, List.foldl_nil,
    Table.insert, Table.insert, if_neg hne, if_pos hlt]

theorem toTrees_eq (operands : List Filter) : toTrees operands = operands.map toTree := by
  induction operands with
  | nil => rfl
  | cons operand operands ih => rw [toTrees, ih, List.map_cons]

/-- A field of a predicate: no array and no object, and read back if its numbers are. -/
structure PlainField (numbers : List Double) (value : Json) : Prop where
  depth : value.depth = 0
  canonical : (∀ x ∈ numbers, KeptNumber x) → value.Canonical

/-- How a filter is stored: as a group with its operands, or as a predicate. -/
inductive StoredAs (filter : Filter) : Json → Prop
  | group {type : String} (hempty : filter.operands = [] → filter.IsEmptyGroup) :
      StoredAs filter (groupNode type (filter.operands.map toTree))
  | leaf {type property : String} {fields : List (String × Json)}
      (hoperands : filter.operands = []) (hgroup : ¬filter.IsEmptyGroup)
      (hleaves : filter.leaves = [filter])
      (hfields : ∀ field ∈ fields, PlainField filter.numbers field.2) :
      StoredAs filter (leafNode type property fields)

theorem plainField_text (numbers : List Double) (text : String) :
    PlainField numbers (.string text) := ⟨rfl, fun _ => .string text⟩

theorem plainField_literal {numbers : List Double} {value : Literal}
    (h : value.numbers ⊆ numbers) : PlainField numbers (Literal.toJson value) :=
  ⟨depth_literal value, fun hnumbers => canonical_literal fun x hx => hnumbers x (h hx)⟩

theorem storedAs_toTree (filter : Filter) : StoredAs filter (toTree filter) := by
  cases filter with
  | and operands =>
    rw [toTree, toTrees_eq]
    exact .group fun h => .inl (congrArg _ h)
  | or operands =>
    rw [toTree, toTrees_eq]
    exact .group fun h => .inr (congrArg _ h)
  | not operand => exact .group nofun
  | compare property comparison value =>
    refine .leaf rfl nofun rfl ?_
    exact List.forall_mem_singleton.2 (plainField_literal (List.Subset.refl _))
  | between property lower upper =>
    refine .leaf rfl nofun rfl (List.forall_mem_cons.2 ⟨?_, List.forall_mem_singleton.2 ?_⟩)
    · exact plainField_literal (List.subset_append_left _ _)
    · exact plainField_literal (List.subset_append_right _ _)
  | isNull property => exact .leaf rfl nofun rfl nofun
  | before property instant =>
    exact .leaf rfl nofun rfl (List.forall_mem_singleton.2 (plainField_text _ _))
  | after property instant =>
    exact .leaf rfl nofun rfl (List.forall_mem_singleton.2 (plainField_text _ _))
  | during property start finish =>
    exact .leaf rfl nofun rfl (List.forall_mem_cons.2
      ⟨plainField_text _ _, List.forall_mem_singleton.2 (plainField_text _ _)⟩)
  | intersects property geometry =>
    exact .leaf rfl nofun rfl (List.forall_mem_singleton.2 (plainField_text _ _))
  | within property geometry distance units =>
    have hdistance : PlainField [distance] (.ofDouble distance) :=
      plainField_literal (List.Subset.refl (Literal.number distance).numbers)
    exact .leaf rfl nofun rfl (List.forall_mem_cons.2 ⟨plainField_text _ _,
      List.forall_mem_cons.2 ⟨hdistance, List.forall_mem_singleton.2 (plainField_text _ _)⟩⟩)

theorem canonical_groupNode (type : String) {trees : List Json}
    (h : ∀ tree ∈ trees, tree.Canonical) : (groupNode type trees).Canonical :=
  Json.canonical_ofFields (List.forall_mem_cons.2
    ⟨.string type, List.forall_mem_singleton.2 (.array h)⟩)

theorem depth_groupNode (type : String) (trees : List Json) :
    (groupNode type trees).depth = Json.itemsDepth trees + 2 := by
  rw [groupNode_eq]
  simp [Json.depth, Json.fieldsDepth]

/-- The fields of a predicate behind its type and its property. -/
theorem forall_mem_leafFields {p : Json → Prop} {type property : String}
    {fields : List (String × Json)} (htext : ∀ text, p (.string text))
    (h : ∀ field ∈ fields, p field.2) :
    ∀ field ∈ ("type", .string type) :: ("property", .string property) :: fields, p field.2 :=
  List.forall_mem_cons.2 ⟨htext type, List.forall_mem_cons.2 ⟨htext property, h⟩⟩

/-- The tree of a storable filter is read back from its text. -/
theorem canonical_toTree {filter : Filter} (h : ∀ leaf ∈ filter.leaves, Storable leaf) :
    (toTree filter).Canonical := by
  induction filter using Filter.induction with
  | step filter ih =>
    have hstored := storedAs_toTree filter
    generalize toTree filter = tree at hstored ⊢
    cases hstored with
    | group hempty =>
      refine canonical_groupNode _ (List.forall_mem_map.2 fun operand hoperand => ?_)
      exact ih operand hoperand fun leaf hleaf =>
        h leaf (Filter.mem_leaves_of_mem_operands hoperand hleaf)
    | leaf hoperands hgroup hleaves hfields =>
      have hnumbers := (h filter (hleaves ▸ List.mem_singleton_self _)).numbers
      refine Json.canonical_ofFields (forall_mem_leafFields .string ?_)
      exact fun field hfield => (hfields field hfield).canonical hnumbers

theorem depth_leafNode_le {numbers : List Double} {type property : String}
    {fields : List (String × Json)} (h : ∀ field ∈ fields, PlainField numbers field.2) :
    (leafNode type property fields).depth ≤ 1 :=
  Json.depth_ofFields_le fun field hfield =>
    Nat.le_of_eq (forall_mem_leafFields (plainField_text numbers) h field hfield).depth

/-- A stored filter nests within an odd number of levels just if its nodes are on half as many
and none of them on the last is a group without operands. -/
theorem depth_toTree_le_iff {filter : Filter} {level : Nat} :
    (toTree filter).depth ≤ 2 * level + 1 ↔
      filter.levels ≤ level + 1 ∧ ¬filter.HasEmptyGroupOn (level + 1) := by
  induction level generalizing filter with
  | zero =>
    have hstored := storedAs_toTree filter
    rw [Filter.levels_eq, Filter.hasEmptyGroupOn_one]
    generalize toTree filter = tree at hstored ⊢
    cases hstored with
    | group hempty =>
      rw [depth_groupNode, Nat.add_le_add_iff_right, Filter.operandsLevels_le_iff]
      refine iff_of_false (by omega) fun ⟨hlevels, hgroup⟩ => hgroup (hempty ?_)
      refine List.eq_nil_iff_forall_not_mem.2 fun operand hoperand => ?_
      have hlevel := hlevels operand hoperand
      rw [Filter.levels_eq] at hlevel
      cases hlevel
    | leaf hoperands hgroup hleaves hfields =>
      rw [hoperands]
      exact iff_of_true (depth_leafNode_le hfields) ⟨Nat.le_refl 1, hgroup⟩
  | succ level ih =>
    have hstored := storedAs_toTree filter
    rw [Filter.levels_eq, Filter.hasEmptyGroupOn_succ_succ]
    generalize toTree filter = tree at hstored ⊢
    cases hstored with
    | group hempty =>
      have hdepth : 2 * (level + 1) + 1 = 2 * level + 1 + 2 := rfl
      rw [depth_groupNode, hdepth, Nat.add_le_add_iff_right, Json.itemsDepth_le_iff,
        List.forall_mem_map, Nat.add_le_add_iff_right, Filter.operandsLevels_le_iff]
      simp only [ih, not_exists, not_and, forall_and]
    | leaf hoperands hgroup hleaves hfields =>
      rw [hoperands]
      refine iff_of_true ((depth_leafNode_le hfields).trans (by omega)) ⟨?_, nofun⟩
      simp [Filter.operandsLevels]

/-! ## Reading trees -/

/-- What a stored name is read as. -/
def rereadName (name : String) : String := String.ofList (Tree.unwrapName (Text.trim name.toList))

theorem rereadName_eq_empty_iff {name : String} :
    rereadName name = "" ↔ Tree.unwrapName (Text.trim name.toList) = [] := by
  rw [rereadName, ← String.toList_eq_nil_iff, String.toList_ofList]

theorem KeptName.rereadName_eq {name : String} (h : KeptName name) : rereadName name = name := by
  rw [rereadName, h.trim, h.unwrapName, String.ofList_toList]

/-- Trees that are read as some filters are read as all of them, wherever they stand. -/
theorem children_toTree_eq_ok_iff {read : String → Json → Except TreeError Filter}
    {kept : Filter → Prop} {reread : Filter → Filter} {operands others : List Filter}
    (h : ∀ operand ∈ operands, ∀ path other,
      read path (toTree operand) = .ok other ↔ kept operand ∧ other = reread operand)
    (path : String) (index : Nat) :
    Tree.children read path index (operands.map toTree) = .ok others ↔
      (∀ operand ∈ operands, kept operand) ∧ others = operands.map reread := by
  induction operands generalizing index others with
  | nil => simp [Tree.children, eq_comm]
  | cons operand operands ih =>
    obtain ⟨hfirst, hmore⟩ := List.forall_mem_cons.1 h
    rw [List.map_cons, Tree.children, List.forall_mem_cons]
    constructor
    · intro hread
      obtain ⟨first, hreadFirst, hread⟩ := bind_eq_ok hread
      obtain ⟨more, hreadMore, hread⟩ := bind_eq_ok hread
      cases hread
      obtain ⟨hkept, rfl⟩ := (hfirst _ _).1 hreadFirst
      obtain ⟨hkeptMore, rfl⟩ := (ih hmore _).1 hreadMore
      exact ⟨⟨hkept, hkeptMore⟩, rfl⟩
    · rintro ⟨⟨hkept, hkeptMore⟩, rfl⟩
      rw [(hfirst _ _).2 ⟨hkept, rfl⟩, (ih hmore _).2 ⟨hkeptMore, rfl⟩]
      rfl

theorem filter_groupNode (levels : Nat) (path type : String) (trees : List Json) :
    Tree.filter (levels + 1) path (groupNode type trees) =
      match String.ofList (Text.upper type.toList) with
      | "AND" => (Tree.children (Tree.filter levels) path 0 trees).map .and
      | "OR" => (Tree.children (Tree.filter levels) path 0 trees).map .or
      | "NOT" => do
        match ← Tree.children (Tree.filter levels) path 0 trees with
        | [child] => .ok (.not child)
        | _ => Tree.fail (Tree.fieldPath path "filters") .notOneChild
      | type => Tree.leaf [("filters", .array trees), ("type", .string type)] path type := by
  rw [groupNode_eq]
  rfl

section Predicates

/-- The table of a predicate. -/
abbrev leafTable (type property : String) (fields : List (String × Json)) : Tree.Node :=
  Table.ofList (("type", .string type) :: ("property", .string property) :: fields)

variable {type property : String} {fields : List (String × Json)}
  (hkeys : ("type" :: "property" :: fields.map Prod.fst).Nodup)

include hkeys

theorem find?_leafTable {field : String} {value : Json} (h : (field, value) ∈ fields) :
    Table.find? field (leafTable type property fields) = some value :=
  Table.find?_ofList_of_mem (by exact hkeys) (List.mem_cons_of_mem _ (List.mem_cons_of_mem _ h))

theorem text_leafTable {field value : String} (h : (field, .string value) ∈ fields)
    (path : String) : Tree.text (leafTable type property fields) path field = .ok value := by
  rw [Tree.text, find?_leafTable hkeys h]

theorem literal_leafTable {field : String} {value : Literal}
    (h : (field, Literal.toJson value) ∈ fields) (hnumbers : ∀ x ∈ value.numbers, x.isFinite = true)
    (path : String) : Tree.literal (leafTable type property fields) path field = .ok value := by
  rw [Tree.literal, find?_leafTable hkeys h]
  cases value with
  | text value => rfl
  | number x =>
    rw [Literal.toJson, Json.ofDouble, if_pos (hnumbers x List.mem_cons_self)]
    rfl
  | bool value => rfl

theorem property_leafTable (path : String) :
    Tree.property (leafTable type property fields) path =
      if rereadName property = "" then Tree.fail (Tree.fieldPath path "property") .emptyProperty
      else .ok (rereadName property) := by
  have hfind : Table.find? "property" (leafTable type property fields) =
      some (.string property) :=
    Table.find?_ofList_of_mem (by exact hkeys) (List.mem_cons_of_mem _ List.mem_cons_self)
  have htext : Tree.text (leafTable type property fields) path "property" = .ok property := by
    rw [Tree.text, hfind]
  simp only [Tree.property, htext, bind, Except.bind]
  split
  · rename_i hnil
    rw [if_pos (rereadName_eq_empty_iff.2 hnil)]
  · rename_i hname
    rw [if_neg fun hblank => hname (rereadName_eq_empty_iff.1 hblank)]
    rfl

/-- A node is read as a predicate unless its type is that of a group. -/
theorem filter_leafNode
    (htype : String.ofList (Text.upper type.toList) = type ∧ type ∉ ["AND", "OR", "NOT"])
    (levels : Nat) (path : String) : Tree.filter (levels + 1) path (leafNode type property fields) =
      Tree.leaf (leafTable type property fields) path type := by
  have hfind : Table.find? "type" (leafTable type property fields) = some (.string type) :=
    Table.find?_ofList_of_mem (by exact hkeys) List.mem_cons_self
  rw [leafNode, Json.ofFields, Tree.filter, hfind]
  dsimp only
  rw [htype.1]
  split
  · exact absurd (by decide) htype.2
  · exact absurd (by decide) htype.2
  · exact absurd (by decide) htype.2
  · rfl

end Predicates

/-- A node that has an operator for its type is a comparison. -/
theorem leaf_symbol (node : Tree.Node) (path : String) (comparison : Comparison) :
    Tree.leaf node path comparison.symbol = (do
      let value ← Tree.literal node path "value"
      (Tree.property node path).map fun name => .compare name comparison value) := by
  cases comparison <;> rfl

/-- The tree of a predicate is read as the predicate on the name that its own is read as. -/
theorem filter_predicate {filter : Filter} {name : String}
    (hproperty : filter.property? = some name)
    (hnumbers : ∀ x ∈ filter.numbers, x.isFinite = true) (levels : Nat) (path : String) :
    Tree.filter (levels + 1) path (toTree filter) =
      if rereadName name = "" then Tree.fail (Tree.fieldPath path "property") .emptyProperty
      else .ok (filter.renamed rereadName) := by
  cases filter with
  | and operands => cases hproperty
  | or operands => cases hproperty
  | not operand => cases hproperty
  | compare property comparison value =>
    obtain rfl := Option.some.inj hproperty
    rw [toTree, filter_leafNode (by simp) (by cases comparison <;> decide), leaf_symbol,
      literal_leafTable (by simp) List.mem_cons_self hnumbers, property_leafTable (by simp)]
    split <;> rfl
  | between property lower upper =>
    obtain rfl := Option.some.inj hproperty
    obtain ⟨hlower, hupper⟩ := List.forall_mem_append.1 hnumbers
    rw [toTree, filter_leafNode (by simp) (by decide)]
    simp only [Tree.leaf]
    rw [property_leafTable (by simp), literal_leafTable (by simp) List.mem_cons_self hlower,
      literal_leafTable (by simp) (List.mem_cons_of_mem _ List.mem_cons_self) hupper]
    split <;> rfl
  | isNull property =>
    obtain rfl := Option.some.inj hproperty
    rw [toTree, filter_leafNode (by simp) (by decide)]
    simp only [Tree.leaf]
    rw [property_leafTable (by simp)]
    split <;> rfl
  | before property instant =>
    obtain rfl := Option.some.inj hproperty
    rw [toTree, filter_leafNode (by simp) (by decide)]
    simp only [Tree.leaf]
    rw [property_leafTable (by simp), text_leafTable (by simp) List.mem_cons_self]
    split <;> rfl
  | after property instant =>
    obtain rfl := Option.some.inj hproperty
    rw [toTree, filter_leafNode (by simp) (by decide)]
    simp only [Tree.leaf]
    rw [property_leafTable (by simp), text_leafTable (by simp) List.mem_cons_self]
    split <;> rfl
  | during property start finish =>
    obtain rfl := Option.some.inj hproperty
    rw [toTree, filter_leafNode (by simp) (by decide)]
    simp only [Tree.leaf]
    rw [property_leafTable (by simp), text_leafTable (by simp) List.mem_cons_self,
      text_leafTable (by simp) (List.mem_cons_of_mem _ List.mem_cons_self)]
    split <;> rfl
  | intersects property geometry =>
    obtain rfl := Option.some.inj hproperty
    rw [toTree, filter_leafNode (by simp) (by decide)]
    simp only [Tree.leaf]
    rw [property_leafTable (by simp), text_leafTable (by simp) List.mem_cons_self]
    split <;> rfl
  | within property geometry distance units =>
    obtain rfl := Option.some.inj hproperty
    have hdistance : Json.ofDouble distance = .number (.real distance) :=
      if_pos (hnumbers distance List.mem_cons_self)
    have hunits {first second third : String × Json} : third ∈ [first, second, third] :=
      List.mem_cons_of_mem _ (List.mem_cons_of_mem _ List.mem_cons_self)
    rw [toTree, hdistance, filter_leafNode (by simp) (by decide)]
    simp only [Tree.leaf, Tree.within]
    rw [find?_leafTable (by simp) (List.mem_cons_of_mem _ List.mem_cons_self),
      find?_leafTable (by simp) hunits, property_leafTable (by simp),
      text_leafTable (by simp) List.mem_cons_self]
    dsimp only [Option.bind_some, Json.asDouble?, Json.asString?, Option.getD_some]
    split <;> rfl

/-- Where there are levels enough, the tree of a filter is read just if no name is read as none,
and then as the filter on the names that its own are read as. -/
theorem filter_toTree_eq_ok_iff {levels : Nat} {filter other : Filter}
    (hlevels : filter.levels ≤ levels)
    (hnumbers : ∀ leaf ∈ filter.leaves, ∀ x ∈ leaf.numbers, x.isFinite = true) (path : String) :
    Tree.filter levels path (toTree filter) = .ok other ↔
      (∀ name ∈ filter.names, rereadName name ≠ "") ∧ other = filter.renamed rereadName := by
  induction levels generalizing filter other path with
  | zero =>
    rw [Filter.levels_eq] at hlevels
    cases hlevels
  | succ levels ih =>
    rw [Filter.levels_eq, Nat.add_le_add_iff_right, Filter.operandsLevels_le_iff] at hlevels
    have hoperands : ∀ operand ∈ filter.operands, ∀ path other,
        Tree.filter levels path (toTree operand) = .ok other ↔
          (∀ name ∈ operand.names, rereadName name ≠ "") ∧
            other = operand.renamed rereadName := by
      intro operand hoperand path other
      exact ih (hlevels operand hoperand) (fun leaf hleaf =>
        hnumbers leaf (Filter.mem_leaves_of_mem_operands hoperand hleaf)) path
    have hchildren (others : List Filter) :
        Tree.children (Tree.filter levels) path 0 (filter.operands.map toTree) = .ok others ↔ _ :=
      children_toTree_eq_ok_iff hoperands path 0
    cases filter with
    | and operands =>
      rw [toTree, toTrees_eq, filter_groupNode, Filter.forall_mem_names_iff rfl, Filter.renamed,
        Filter.renamedAll_eq_map]
      exact map_eq_ok_iff hchildren
    | or operands =>
      rw [toTree, toTrees_eq, filter_groupNode, Filter.forall_mem_names_iff rfl, Filter.renamed,
        Filter.renamedAll_eq_map]
      exact map_eq_ok_iff hchildren
    | not operand =>
      rw [toTree, filter_groupNode, Filter.forall_mem_names_iff rfl, Filter.renamed]
      constructor
      · intro hread
        obtain ⟨others, hothers, hread⟩ := bind_eq_ok hread
        obtain ⟨hnames, rfl⟩ := (hchildren others).1 hothers
        cases hread
        exact ⟨hnames, rfl⟩
      · rintro ⟨hnames, rfl⟩
        have hread := (hchildren _).2 ⟨hnames, rfl⟩
        change Tree.children (Tree.filter levels) path 0 [toTree operand] = _ at hread
        rw [hread]
        rfl
    | _ =>
      have hleaf := hnumbers _ List.mem_cons_self
      rw [filter_predicate rfl hleaf, Filter.names_of_property? rfl, List.forall_mem_singleton]
      split
      · rename_i hblank
        exact iff_of_false nofun fun h => h.1 hblank
      · rename_i hname
        rw [Except.ok.injEq, eq_comm, and_iff_right hname]

/-- The tree of a storable filter is read as the filter where there are levels enough. -/
theorem filter_toTree {levels : Nat} {filter : Filter} (hlevels : filter.levels ≤ levels)
    (h : ∀ leaf ∈ filter.leaves, Storable leaf) (path : String) :
    Tree.filter levels path (toTree filter) = .ok filter := by
  have hnames : ∀ name ∈ filter.names, KeptName name := by
    intro name hname
    obtain ⟨leaf, hleaf, hproperty⟩ := List.mem_filterMap.1 hname
    exact (h leaf hleaf).name name hproperty
  have hnumbers : ∀ leaf ∈ filter.leaves, ∀ x ∈ leaf.numbers, x.isFinite = true :=
    fun leaf hleaf x hx => ((h leaf hleaf).numbers x hx).isFinite
  refine (filter_toTree_eq_ok_iff hlevels hnumbers path).2 ⟨fun name hname => ?_, ?_⟩
  · rw [(hnames name hname).rereadName_eq]
    exact (hnames name hname).ne_empty
  · exact (Filter.renamed_eq_self_iff.2 fun name hname => (hnames name hname).rereadName_eq).symm

end Cql

end CatalogSearch
