import CatalogSearch.Cql.Filter
import CatalogSearch.Json.Basic
import CatalogSearch.Text.Characters

/-!
# Filters as structured values

Saved searches hold their filter as a tree of objects with a type and the fields
that this type needs.  Reading accepts property names with a layer of double
quotes around them and types in any ASCII case; a fault carries the path of the
node or field at which it was noticed.
-/

namespace CatalogSearch.Cql

/-- How deep the nodes of a tree may nest. -/
def treeLimit : Nat := 64

inductive TreeProblem
  | nestingTooDeep
  | notAnObject
  | typeRequired
  | unsupportedType (name : String)
  | filtersNotAnArray
  | notOneChild
  | notText (field : String)
  | emptyProperty
  | distanceNotANumber
  | valueRequired
  | valueOfWrongShape
deriving DecidableEq, Repr

namespace TreeProblem

def message : TreeProblem → String
  | nestingTooDeep => "filter nesting exceeds " ++ toString treeLimit ++ " levels."
  | notAnObject => "filter node must be an object."
  | typeRequired => "filter type is required."
  | unsupportedType name => "unsupported filter type '" ++ name ++ "'."
  | filtersNotAnArray => "filters must be an array."
  | notOneChild => "NOT requires exactly one child filter."
  | notText field => field ++ " must be a string."
  | emptyProperty => "property must be non-empty."
  | distanceNotANumber => "distance must be a number."
  | valueRequired => "value is required."
  | valueOfWrongShape => "value must be a string, number, or boolean."

end TreeProblem

/-- A problem with a tree and the path to where it lies. -/
structure TreeError where
  path : String
  problem : TreeProblem
deriving DecidableEq, Repr

def TreeError.message (error : TreeError) : String := error.path ++ ": " ++ error.problem.message

namespace Tree

def fail {α : Type} (path : String) (problem : TreeProblem) : Except TreeError α :=
  .error ⟨path, problem⟩

/-- The path of a field of a node. -/
def fieldPath (path field : String) : String := path ++ "." ++ field

/-- The path of a child of a node. -/
def childPath (path : String) (index : Nat) : String :=
  path ++ ".filters[" ++ toString index ++ "]"

abbrev Node := Table Json

/-- A field that must hold text. -/
def text (node : Node) (path field : String) : Except TreeError String :=
  match Table.find? field node with
  | some (.string value) => .ok value
  | _ => fail (fieldPath path field) (.notText field)

/-- Doubled quotes made single. -/
def undouble : List Char → List Char
  | [] => []
  | '"' :: '"' :: rest => '"' :: undouble rest
  | c :: rest => c :: undouble rest

/-- A name without the pair of double quotes around it, if there is one. -/
def unwrapName (name : List Char) : List Char :=
  match name with
  | '"' :: rest =>
    match rest.getLast? with
    | some '"' => undouble rest.dropLast
    | _ => name
  | _ => name

def property (node : Node) (path : String) : Except TreeError String := do
  let name ← text node path "property"
  match unwrapName (Text.trim name.toList) with
  | [] => fail (fieldPath path "property") .emptyProperty
  | name => .ok (String.ofList name)

def literal (node : Node) (path field : String) : Except TreeError Literal :=
  match Table.find? field node with
  | some (.string value) => .ok (.text value)
  | some (.bool value) => .ok (.bool value)
  | some (.number value) => .ok (.number value.toDouble)
  | some _ => fail (fieldPath path field) .valueOfWrongShape
  | none => fail (fieldPath path field) .valueRequired

/-- The units of distances that name none. -/
def defaultUnits : String := "meters"

def within (node : Node) (path : String) : Except TreeError Filter := do
  match (Table.find? "distance" node).bind Json.asDouble? with
  | none => fail (fieldPath path "distance") .distanceNotANumber
  | some distance =>
    let units := ((Table.find? "units" node).bind Json.asString?).getD defaultUnits
    let name ← property node path
    let geometry ← text node path "value"
    .ok (.within name geometry distance units)

/-- A node without children, by its type in capitals. -/
def leaf (node : Node) (path type : String) : Except TreeError Filter :=
  match type with
  | "BETWEEN" => do
    let name ← property node path
    let lower ← literal node path "lowerBoundary"
    let upper ← literal node path "upperBoundary"
    .ok (.between name lower upper)
  | "IS NULL" => (property node path).map .isNull
  | "BEFORE" => do
    let name ← property node path
    (text node path "value").map (.before name)
  | "AFTER" => do
    let name ← property node path
    (text node path "value").map (.after name)
  | "DURING" => do
    let name ← property node path
    let start ← text node path "from"
    (text node path "to").map (.during name start)
  | "INTERSECTS" => do
    let name ← property node path
    (text node path "value").map (.intersects name)
  | "DWITHIN" => within node path
  | type =>
    match Comparison.ofSymbol? type with
    | none => fail (fieldPath path "type") (.unsupportedType type)
    | some comparison => do
      let value ← literal node path "value"
      (property node path).map fun name => .compare name comparison value

/-- The children of a node, numbered from `index` on. -/
def children (read : String → Json → Except TreeError Filter) (path : String) (index : Nat) :
    List Json → Except TreeError (List Filter)
  | [] => .ok []
  | child :: rest => do
    let first ← read (childPath path index) child
    let more ← children read path (index + 1) rest
    .ok (first :: more)

/-- The children listed in the field for them. -/
def operands (read : String → Json → Except TreeError Filter) (node : Node) (path : String) :
    Except TreeError (List Filter) :=
  match Table.find? "filters" node with
  | some (.array items) => children read path 0 items
  | _ => fail (fieldPath path "filters") .filtersNotAnArray

/-- The filter of a node, below which `levels` levels of nodes may follow, itself
included. -/
def filter (levels : Nat) (path : String) (value : Json) : Except TreeError Filter :=
  match levels with
  | 0 => fail path .nestingTooDeep
  | levels + 1 =>
    match value with
    | .object node =>
      match Table.find? "type" node with
      | some (.string type) =>
        match String.ofList (Text.upper type.toList) with
        | "AND" => (operands (filter levels) node path).map .and
        | "OR" => (operands (filter levels) node path).map .or
        | "NOT" => do
          match ← operands (filter levels) node path with
          | [child] => .ok (.not child)
          | _ => fail (fieldPath path "filters") .notOneChild
        | type => leaf node path type
      | _ => fail (fieldPath path "type") .typeRequired
    | _ => fail path .notAnObject

end Tree

/-- The filter that a tree of objects stands for. -/
def ofTree (value : Json) : Except TreeError Filter := Tree.filter treeLimit "$" value

def Literal.toJson : Literal → Json
  | .text value => .string value
  | .number value => .ofDouble value
  | .bool value => .bool value

/-- A node of a type on a property, with its further fields. -/
def leafNode (type property : String) (fields : List (String × Json)) : Json :=
  .ofFields (("type", .string type) :: ("property", .string property) :: fields)

def groupNode (type : String) (operands : List Json) : Json :=
  .ofFields [("type", .string type), ("filters", .array operands)]

mutual

/-- The tree of objects that a filter is saved as. -/
def toTree : Filter → Json
  | .and operands => groupNode "AND" (toTrees operands)
  | .or operands => groupNode "OR" (toTrees operands)
  | .not operand => groupNode "NOT" [toTree operand]
  | .compare property comparison value =>
    leafNode comparison.symbol property [("value", Literal.toJson value)]
  | .between property lower upper =>
    leafNode "BETWEEN" property
      [("lowerBoundary", Literal.toJson lower), ("upperBoundary", Literal.toJson upper)]
  | .isNull property => leafNode "IS NULL" property []
  | .before property instant => leafNode "BEFORE" property [("value", .string instant)]
  | .after property instant => leafNode "AFTER" property [("value", .string instant)]
  | .during property start finish =>
    leafNode "DURING" property [("from", .string start), ("to", .string finish)]
  | .intersects property geometry => leafNode "INTERSECTS" property [("value", .string geometry)]
  | .within property geometry distance units =>
    leafNode "DWITHIN" property
      [("value", .string geometry), ("distance", .ofDouble distance), ("units", .string units)]

def toTrees : List Filter → List Json
  | [] => []
  | operand :: operands => toTree operand :: toTrees operands

end

end CatalogSearch.Cql
