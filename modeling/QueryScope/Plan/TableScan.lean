import QueryScope.Plan.Visitor

/-!
# Scanned tables

The tables that a plan reads, found by a visitor that knows only scans and passes through all else.
-/

namespace QueryScope

/-- A scan in a plan. -/
structure TableScan where
  /-- The plan node. -/
  node : PlanNodeId
  /-- The connector that serves the table. -/
  connector : ConnectorId
  /-- The kind of the table's handle. -/
  variant : String
  /-- The table's name in its schema. -/
  table : SchemaTable
deriving DecidableEq

namespace TableScan

/-- Appends every scan to the ones that are already found. -/
def collector : PlanNode.Visitor (List TableScan) Unit where
  fallback _ sources := Branch.visitAll sources
  tableScan id table _ _ :=
    modify (· ++ [⟨id, table.connector, table.handle.variant, table.handle.schemaTable⟩])

/-- The scans that a walk finds, in its order. -/
def found (walk : Visit (List TableScan) Unit) : Except VisitError (List TableScan) :=
  match walk.runFrom [] with
  | (.ok (), scans) => .ok scans
  | (.error e, _) => .error e

end TableScan

/-- The scans of a plan, a node before its sources. -/
def PlanNode.tableScans (node : PlanNode) : Except VisitError (List TableScan) :=
  TableScan.found (node.accept TableScan.collector)

/-- The scans of several fragments, in the order of the fragments. -/
def Fragment.tableScans (fragments : List Fragment) : Except VisitError (List TableScan) :=
  TableScan.found (fragments.forM fun f => f.root.accept TableScan.collector)

end QueryScope
