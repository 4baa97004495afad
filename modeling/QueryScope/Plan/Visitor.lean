import QueryScope.Plan.Basic
import QueryScope.Visit

/-!
# Visitors of plans

A visitor has a hook for each kind of plan node. A hook that is not given falls back to one that is
told the kind and handed the sources; unless that one is given too, it refuses.
-/

namespace QueryScope.PlanNode

/-- A source with the walk over it. -/
abbrev Source (σ α : Type) := Branch PlanNode σ α

/-- What to do at each kind of plan node. -/
structure Visitor (σ α : Type) where
  /-- Any kind without a hook of its own, with its sources. -/
  fallback : String → List (Source σ α) → Visit σ α := fun kind _ => throw (.unsupported kind)
  /-- Naming of the result's columns. -/
  output : PlanNodeId → Source σ α → (columnNames outputs : List String) → Visit σ α :=
    fun _ source _ _ => fallback "output" [source]
  /-- Computing of symbols. -/
  project : PlanNodeId → Source σ α → List (String × Expression) → Visit σ α :=
    fun _ source _ => fallback "project" [source]
  /-- Dropping of rows. -/
  filter : PlanNodeId → Source σ α → Expression → Visit σ α :=
    fun _ source _ => fallback "filter" [source]
  /-- Reading of a table. -/
  tableScan : PlanNodeId → TableHandle → (outputSymbols : List String) →
      List (String × ConnectorColumn) → Visit σ α :=
    fun _ _ _ _ => fallback "tablescan" []
  /-- Aggregating in groups. -/
  aggregation : PlanNodeId → Source σ α → List (String × Expression) →
      (groupingKeys : List String) → AggregationStep → Visit σ α :=
    fun _ source _ _ _ => fallback "aggregation" [source]
  /-- Keeping of a number of rows. -/
  limit : PlanNodeId → Source σ α → (count : UInt64) → LimitStep → Visit σ α :=
    fun _ source _ _ => fallback "limit" [source]
  /-- Spreading of rows. -/
  exchange : PlanNodeId → ExchangeType → ExchangeScope → PartitioningScheme →
      List (Source σ α) → Visit σ α :=
    fun _ _ _ _ sources => fallback "exchange" sources
  /-- Reading of other fragments. -/
  remoteSource : PlanNodeId → List FragmentId → (outputs : List String) → ExchangeType →
      Visit σ α :=
    fun _ _ _ _ => fallback "remoteSource" []
  /-- Rows of its own. -/
  values : PlanNodeId → (outputSymbols : List String) → (rows : List (List Expression)) →
      Visit σ α :=
    fun _ _ _ => fallback "values" []

variable {σ α : Type}

mutual

/-- Visit a plan: the hook of its root's kind decides whether and when the sources are visited. -/
def accept (v : Visitor σ α) : PlanNode → Visit σ α
  | .output id source columnNames outputs =>
    v.output id ⟨source, accept v source⟩ columnNames outputs
  | .project id source assignments => v.project id ⟨source, accept v source⟩ assignments
  | .filter id source predicate => v.filter id ⟨source, accept v source⟩ predicate
  | .tableScan id table outputSymbols assignments => v.tableScan id table outputSymbols assignments
  | .aggregation id source aggregations groupingKeys step =>
    v.aggregation id ⟨source, accept v source⟩ aggregations groupingKeys step
  | .limit id source count step => v.limit id ⟨source, accept v source⟩ count step
  | .exchange id type scope scheme sources =>
    v.exchange id type scope scheme (branches v sources)
  | .remoteSource id fragments outputs exchangeType =>
    v.remoteSource id fragments outputs exchangeType
  | .values id outputSymbols rows => v.values id outputSymbols rows

/-- Several plans, each with the walk over it. -/
def branches (v : Visitor σ α) : List PlanNode → List (Source σ α)
  | [] => []
  | node :: rest => ⟨node, accept v node⟩ :: branches v rest

end

/-- Records every node that is reached, each before its sources. -/
def Visitor.tracing : Visitor (List (String × Nat)) Unit where
  fallback := Branch.trace

end QueryScope.PlanNode
