import QueryScope.Plan.TableScan
import QueryScope.Proofs.Visiting

/-!
# One order of a plan's nodes

A plan is searched by a recursion that stops early, its fragments' sources are gathered by a loop
over a stack, and its scans by a visitor with an accumulator. All three go through the nodes in the
order of the plain recursion: a node, and then the trees of its sources.
-/

namespace QueryScope

open Branching (depthFirst depthFirst_eq)

namespace PlanNode

/-! ## Searching -/

theorem findIn?_eq_findSome? (wanted : PlanNodeId) (nodes : List PlanNode) :
    findIn? wanted nodes = nodes.findSome? (find? wanted) := by
  induction nodes with
  | nil => rfl
  | cons node rest ih =>
    rw [findIn?, List.findSome?_cons, ih]
    cases node.find? wanted <;> rfl

/-- Whatever its kind, a node is looked at itself, and then its sources are searched in order. -/
theorem find?_eq (wanted : PlanNodeId) (node : PlanNode) : node.find? wanted =
    if node.id = wanted then some node else node.sources.findSome? (find? wanted) := by
  cases node with
  | exchange id type scope scheme sources =>
    rw [find?, findIn?_eq_findSome?]
    rfl
  | output | project | filter | aggregation | limit =>
    rw [find?, sources, List.findSome?_singleton]
    rfl
  | tableScan | remoteSource | values =>
    rw [find?, sources, List.findSome?_nil]
    rfl

/-- The search comes to the first node that has the identifier. -/
theorem find?_eq_find?_depthFirst (wanted : PlanNodeId) (node : PlanNode) :
    node.find? wanted = (depthFirst node).find? fun n => n.id = wanted := by
  induction node using Branching.induction_on with
  | step node ih =>
    have hsources : node.sources.findSome? (find? wanted) =
        (node.sources.flatMap depthFirst).find? fun n => n.id = wanted := by
      rw [List.find?_eq_findSome?_guard]
      -- a search as `findSome?` stops within the first tree that has the identifier
      refine findSome?_flatMap fun c hc => ?_
      rw [ih c hc, List.find?_eq_findSome?_guard]
    rw [find?_eq, hsources, depthFirst_eq, List.find?_cons]
    by_cases h : node.id = wanted
    · simp only [h, if_true, decide_true]
    · simp only [h, if_false, decide_false]
      rfl

/-! ## Sources of fragments -/

/-- The fragments that a node itself reads from. -/
def sourceFragments : PlanNode → List FragmentId
  | .remoteSource _ fragments _ _ => fragments
  | _ => []

/-! ## Scans -/

/-- The scan that a node itself is. -/
def scan? : PlanNode → Option TableScan
  | .tableScan id table _ _ =>
    some ⟨id, table.connector, table.handle.variant, table.handle.schemaTable⟩
  | _ => none

/-- The scans of a plan in the order of its nodes. -/
def scans (node : PlanNode) : List TableScan :=
  (depthFirst node).filterMap scan?

theorem scans_eq (node : PlanNode) :
    node.scans = node.scan?.toList ++ node.sources.flatMap scans := by
  rw [scans, depthFirst_eq, List.filterMap_cons, List.filterMap_flatMap]
  cases node.scan? <;> rfl

end PlanNode

theorem Fragment.remoteSources_eq (f : Fragment) :
    f.remoteSources = (depthFirst f.root).flatMap PlanNode.sourceFragments := by
  rw [remoteSources, Branching.preorder_eq_flatMap, List.flatMap_singleton]
  refine List.flatMap_congr fun node _ => ?_
  cases node <;> rfl

namespace TableScan

theorem foldl_append_scans (found : List TableScan) (nodes : List PlanNode) :
    nodes.foldl (fun found node => found ++ node.scans) found =
      found ++ nodes.flatMap PlanNode.scans :=
  List.foldl_append_eq_append

/-- Behind what is already found, the collector puts the scans of the plan. -/
theorem performs_collector (node : PlanNode) :
    (node.accept collector).Performs fun found => found ++ node.scans := by
  induction node using Branching.induction_on with
  | step node ih =>
    have hsources : (Branch.visitAll (PlanNode.branches collector node.sources)).Performs
        fun found => found ++ node.sources.flatMap PlanNode.scans := by
      have h := PlanNode.performs_branches ih
      simp only [foldl_append_scans] at h
      exact h
    intro found
    rw [PlanNode.scans_eq]
    cases node with
    | tableScan => rfl
    | output | project | filter | aggregation | limit | exchange | remoteSource | values =>
      exact hsources found

theorem found_of_performs {walk : Visit (List TableScan) Unit}
    {f : List TableScan → List TableScan} (h : walk.Performs f) : found walk = .ok (f []) := by
  rw [found, h []]

end TableScan

theorem PlanNode.tableScans_eq (node : PlanNode) : node.tableScans = .ok node.scans :=
  TableScan.found_of_performs (TableScan.performs_collector node)

theorem Fragment.tableScans_eq (fragments : List Fragment) :
    tableScans fragments = .ok (fragments.flatMap fun f => f.root.scans) := by
  have hall : (fragments.forM fun f => f.root.accept TableScan.collector).Performs _ :=
    Visit.performs_forM fun f _ => TableScan.performs_collector f.root
  rw [tableScans, TableScan.found_of_performs hall, List.foldl_append_eq_append,
    List.flatMap_def, List.nil_append]

/-- Every way of going through a plan meets the nodes in the order of the plain recursion, in which
a node stands before the trees of its sources: the search for an identifier comes to the first node
that has it, the fragments that a fragment reads from are those of its nodes one after the other,
and the search for scans, which never fails, puts out the nodes that are scans, fragment after
fragment. -/
theorem PlanNode.traversals_depthFirst :
    (∀ node : PlanNode, depthFirst node = node :: node.sources.flatMap depthFirst) ∧
    (∀ (wanted : PlanNodeId) (node : PlanNode),
      node.find? wanted = (depthFirst node).find? (fun n => n.id = wanted) ∧
      (node.find? wanted = none ↔ ∀ n ∈ depthFirst node, n.id ≠ wanted)) ∧
    (∀ f : Fragment, f.remoteSources = (depthFirst f.root).flatMap sourceFragments) ∧
    (∀ node : PlanNode, node.tableScans = .ok ((depthFirst node).filterMap scan?)) ∧
    ∀ fragments : List Fragment, ∃ lists, fragments.mapM (fun f => f.root.tableScans) = .ok lists ∧
      Fragment.tableScans fragments = .ok lists.flatten := by
  refine ⟨depthFirst_eq, fun wanted node => ⟨find?_eq_find?_depthFirst wanted node, ?_⟩,
    Fragment.remoteSources_eq, tableScans_eq, fun fragments => ?_⟩
  · rw [find?_eq_find?_depthFirst, List.find?_eq_none]
    simp
  · refine ⟨fragments.map fun f => f.root.scans, ?_, ?_⟩
    · simp only [tableScans_eq]
      exact List.mapM_pure
    · rw [Fragment.tableScans_eq, List.flatMap_def]

/-- A scan of a table of the metastore; the identifier is the same for every table. -/
def PlanNode.sampleScan (table : String) : PlanNode :=
  .tableScan ⟨"scan", by decide⟩ ⟨⟨"hive", by decide⟩, .hive "sales" table, .remote⟩ [] []

/-- Two scans in an exchange. -/
def PlanNode.sampleExchange : PlanNode :=
  .exchange ⟨"both", by decide⟩ .gather .withinTask
    ⟨⟨⟨none, none, .system .single .single⟩, []⟩, []⟩ [sampleScan "orders", sampleScan "items"]

example : PlanNode.sampleExchange.find? ⟨"scan", by decide⟩ = some (.sampleScan "orders") :=
  rfl

example : PlanNode.sampleExchange.tableScans.map (·.map (·.table.text)) =
    .ok ["sales.orders", "sales.items"] := by
  decide +kernel

end QueryScope
