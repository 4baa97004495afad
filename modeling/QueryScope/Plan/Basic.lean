import QueryScope.Expression.Basic
import QueryScope.Handle
import QueryScope.Preorder

/-!
# Plans

A plan is a tree of nodes, each with its sources below it; a fragment is the part of a plan that one
stage executes.
-/

namespace QueryScope

/-- A node of a plan. Assignments and aggregations have their symbols ascending. -/
inductive PlanNode where
  /-- Names the columns of the result. -/
  | output (id : PlanNodeId) (source : PlanNode) (columnNames outputs : List String)
  /-- Computes symbols from expressions. -/
  | project (id : PlanNodeId) (source : PlanNode) (assignments : List (String × Expression))
  /-- Drops the rows that fail a condition. -/
  | filter (id : PlanNodeId) (source : PlanNode) (predicate : Expression)
  /-- Reads a table. -/
  | tableScan (id : PlanNodeId) (table : TableHandle) (outputSymbols : List String)
      (assignments : List (String × ConnectorColumn))
  /-- Aggregates rows in groups. -/
  | aggregation (id : PlanNodeId) (source : PlanNode) (aggregations : List (String × Expression))
      (groupingKeys : List String) (step : AggregationStep)
  /-- Keeps a number of rows. -/
  | limit (id : PlanNodeId) (source : PlanNode) (count : UInt64) (step : LimitStep)
  /-- Spreads rows anew. -/
  | exchange (id : PlanNodeId) (type : ExchangeType) (scope : ExchangeScope)
      (scheme : PartitioningScheme) (sources : List PlanNode)
  /-- Reads what other fragments put out. -/
  | remoteSource (id : PlanNodeId) (fragments : List FragmentId) (outputs : List String)
      (exchangeType : ExchangeType)
  /-- Holds rows itself. -/
  | values (id : PlanNodeId) (outputSymbols : List String) (rows : List (List Expression))

namespace PlanNode

/-- The name of the kind of node. -/
def kind : PlanNode → String
  | .output .. => "output"
  | .project .. => "project"
  | .filter .. => "filter"
  | .tableScan .. => "tablescan"
  | .aggregation .. => "aggregation"
  | .limit .. => "limit"
  | .exchange .. => "exchange"
  | .remoteSource .. => "remoteSource"
  | .values .. => "values"

/-- The node's identifier. -/
def id : PlanNode → PlanNodeId
  | .output id .. => id
  | .project id .. => id
  | .filter id .. => id
  | .tableScan id .. => id
  | .aggregation id .. => id
  | .limit id .. => id
  | .exchange id .. => id
  | .remoteSource id .. => id
  | .values id .. => id

/-- The sources directly below, in order. -/
def sources : PlanNode → List PlanNode
  | .output _ source _ _ => [source]
  | .project _ source _ => [source]
  | .filter _ source _ => [source]
  | .aggregation _ source _ _ _ => [source]
  | .limit _ source _ _ => [source]
  | .exchange _ _ _ _ sources => sources
  | .tableScan .. | .remoteSource .. | .values .. => []

mutual

/-- The first node with an identifier, a node before its sources. -/
def find? (wanted : PlanNodeId) : PlanNode → Option PlanNode
  | node@(.output id source _ _) => if id = wanted then some node else source.find? wanted
  | node@(.project id source _) => if id = wanted then some node else source.find? wanted
  | node@(.filter id source _) => if id = wanted then some node else source.find? wanted
  | node@(.aggregation id source _ _ _) => if id = wanted then some node else source.find? wanted
  | node@(.limit id source _ _) => if id = wanted then some node else source.find? wanted
  | node@(.exchange id _ _ _ sources) => if id = wanted then some node else findIn? wanted sources
  | node@(.tableScan id ..) => if id = wanted then some node else none
  | node@(.remoteSource id ..) => if id = wanted then some node else none
  | node@(.values id ..) => if id = wanted then some node else none

/-- The first node with an identifier in several plans. -/
def findIn? (wanted : PlanNodeId) : List PlanNode → Option PlanNode
  | [] => none
  | node :: rest => (node.find? wanted).orElse fun _ => findIn? wanted rest

end

mutual

/-- The number of nodes. -/
def size : PlanNode → Nat
  | .output _ source _ _ => source.size + 1
  | .project _ source _ => source.size + 1
  | .filter _ source _ => source.size + 1
  | .aggregation _ source _ _ _ => source.size + 1
  | .limit _ source _ _ => source.size + 1
  | .exchange _ _ _ _ sources => sizeAll sources + 1
  | .tableScan .. | .remoteSource .. | .values .. => 1

/-- The number of nodes in several plans. -/
def sizeAll : List PlanNode → Nat
  | [] => 0
  | node :: rest => node.size + sizeAll rest

end

theorem sizeAll_eq_totalSize (nodes : List PlanNode) : sizeAll nodes = totalSize size nodes := by
  induction nodes with
  | nil => rfl
  | cons node rest ih => simp [sizeAll, totalSize, ih]

instance : Branching PlanNode where
  children := sources
  size := size
  size_children node := by
    cases node <;> simp [sources, size, totalSize, sizeAll_eq_totalSize]

/-- The members of an object that stands for a node: its tag, then its identifier and fields. -/
def tagged (kind : String) (id : PlanNodeId) (fields : List (String × Json)) : Json :=
  .object (("@type", .string kind) :: ("id", .string id.text) :: fields)

/-- Expressions under their symbols as JSON. -/
def encodeAssignments (assignments : List (String × Expression)) : Json :=
  .object (assignments.map fun (symbol, e) => (symbol, e.encode))

mutual

/-- The node as JSON. -/
def encode : PlanNode → Json
  | .output id source columnNames outputs =>
    tagged "output" id [("source", source.encode), ("columnNames", .ofStrings columnNames),
      ("outputs", .ofStrings outputs)]
  | .project id source assignments =>
    tagged "project" id [("source", source.encode), ("assignments", encodeAssignments assignments)]
  | .filter id source predicate =>
    tagged "filter" id [("source", source.encode), ("predicate", predicate.encode)]
  | .tableScan id table outputSymbols assignments =>
    tagged "tablescan" id [("table", table.encode), ("outputSymbols", .ofStrings outputSymbols),
      ("assignments", .object (assignments.map fun (symbol, column) => (symbol, column.encode)))]
  | .aggregation id source aggregations groupingKeys step =>
    tagged "aggregation" id [("source", source.encode),
      ("aggregations", encodeAssignments aggregations), ("groupingKeys", .ofStrings groupingKeys),
      ("step", .ofNamed step)]
  | .limit id source count step =>
    tagged "limit" id [("source", source.encode), ("count", .ofUInt64 count),
      ("step", .ofNamed step)]
  | .exchange id type scope scheme sources =>
    tagged "exchange" id [("type", .ofNamed type), ("scope", .ofNamed scope),
      ("partitioningScheme", scheme.encode), ("sources", .array (encodeAll sources))]
  | .remoteSource id fragments outputs exchangeType =>
    tagged "remoteSource" id [("sourceFragmentIds", .array (fragments.map (.string ·.text))),
      ("outputs", .ofStrings outputs), ("exchangeType", .ofNamed exchangeType)]
  | .values id outputSymbols rows =>
    tagged "values" id [("outputSymbols", .ofStrings outputSymbols),
      ("rows", .array (rows.map fun row => .array (Expression.encodeAll row)))]

/-- Several nodes as JSON. -/
def encodeAll : List PlanNode → List Json
  | [] => []
  | node :: rest => node.encode :: encodeAll rest

end

end PlanNode

/-- The part of a plan that one stage executes. -/
structure Fragment where
  /-- The fragment's identifier. -/
  id : FragmentId
  /-- The plan. -/
  root : PlanNode
  /-- Where it runs. -/
  partitioning : PartitioningHandle
  /-- How its output is spread. -/
  scheme : PartitioningScheme

namespace Fragment

/-- The fragments that this one reads from, in plan order. -/
def remoteSources (f : Fragment) : List FragmentId :=
  (preorder [f.root]).flatMap fun
    | .remoteSource _ fragments _ _ => fragments
    | _ => []

/-- The fragment as JSON. -/
def encode (f : Fragment) : Json :=
  .object [("id", .string f.id.text), ("root", f.root.encode),
    ("partitioning", f.partitioning.encode), ("partitioningScheme", f.scheme.encode)]

end Fragment

end QueryScope
