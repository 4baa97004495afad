import QueryScope.Fault

/-!
# Closed enumerations

Values that travel as one of a fixed list of names, case-sensitively: the states of queries, stages,
tasks and buffers, the kinds of exchange and partitioning, and the operators of expressions.
-/

namespace QueryScope

/-- A type whose values have distinct names in payloads. -/
class Named (α : Type) where
  /-- Every value, in the order of declaration. -/
  all : List α
  /-- The name of a value. -/
  name : α → String

/-- The value with a name. -/
def Named.parse (α : Type) [Named α] (text : String) : Except FieldFault α :=
  match (Named.all : List α).find? (fun a => Named.name a == text) with
  | some a => .ok a
  | none => .error ⟨rootField, .unknownName text⟩

/-- How far a query has come. -/
inductive QueryState where
  /-- Queued by its resource group. -/
  | queued
  /-- Held back until the cluster has room. -/
  | waitingForResources
  /-- On its way to a coordinator. -/
  | dispatching
  /-- In the planner. -/
  | planning
  /-- Its stages are starting. -/
  | starting
  /-- Some task runs. -/
  | running
  /-- The last output is being drained. -/
  | finishing
  /-- Ended well. -/
  | finished
  /-- Ended by a failure. -/
  | failed
deriving DecidableEq, Repr

instance : Named QueryState where
  all := [.queued, .waitingForResources, .dispatching, .planning, .starting, .running,
    .finishing, .finished, .failed]
  name
    | .queued => "QUEUED"
    | .waitingForResources => "WAITING_FOR_RESOURCES"
    | .dispatching => "DISPATCHING"
    | .planning => "PLANNING"
    | .starting => "STARTING"
    | .running => "RUNNING"
    | .finishing => "FINISHING"
    | .finished => "FINISHED"
    | .failed => "FAILED"

/-- Whether the query has come to its end. -/
def QueryState.isDone : QueryState → Bool
  | .finished | .failed => true
  | _ => false

/-- How far a stage has come. -/
inductive StageState where
  /-- Has a plan and waits. -/
  | planned
  /-- Its tasks are being placed on nodes. -/
  | scheduling
  /-- Its splits are being handed out. -/
  | schedulingSplits
  /-- Everything is placed. -/
  | scheduled
  /-- Runs. -/
  | running
  /-- Ended well. -/
  | finished
  /-- Stopped by its user. -/
  | canceled
  /-- Stopped by a failure elsewhere. -/
  | aborted
  /-- Ended by a failure. -/
  | failed
deriving DecidableEq, Repr

instance : Named StageState where
  all := [.planned, .scheduling, .schedulingSplits, .scheduled, .running, .finished, .canceled,
    .aborted, .failed]
  name
    | .planned => "PLANNED"
    | .scheduling => "SCHEDULING"
    | .schedulingSplits => "SCHEDULING_SPLITS"
    | .scheduled => "SCHEDULED"
    | .running => "RUNNING"
    | .finished => "FINISHED"
    | .canceled => "CANCELED"
    | .aborted => "ABORTED"
    | .failed => "FAILED"

/-- Whether the stage has come to its end. -/
def StageState.isDone : StageState → Bool
  | .finished | .canceled | .aborted | .failed => true
  | _ => false

/-- How far a task has come. -/
inductive TaskState where
  /-- Created and waiting. -/
  | planned
  /-- Runs. -/
  | running
  /-- Ended well. -/
  | finished
  /-- Stopped on request. -/
  | canceled
  /-- Stopped by a failure elsewhere. -/
  | aborted
  /-- Ended by a failure. -/
  | failed
deriving DecidableEq, Repr

instance : Named TaskState where
  all := [.planned, .running, .finished, .canceled, .aborted, .failed]
  name
    | .planned => "PLANNED"
    | .running => "RUNNING"
    | .finished => "FINISHED"
    | .canceled => "CANCELED"
    | .aborted => "ABORTED"
    | .failed => "FAILED"

/-- Whether the task has come to its end. -/
def TaskState.isDone : TaskState → Bool
  | .planned | .running => false
  | _ => true

/-- How far an output buffer has come. -/
inductive BufferState where
  /-- Takes new consumers and new pages. -/
  | open
  /-- Takes no new consumers. -/
  | noMoreBuffers
  /-- Takes no new pages. -/
  | noMorePages
  /-- Hands out the pages that are left. -/
  | flushing
  /-- Every page is consumed. -/
  | finished
  /-- Ended by a failure. -/
  | failed
deriving DecidableEq, Repr

instance : Named BufferState where
  all := [.open, .noMoreBuffers, .noMorePages, .flushing, .finished, .failed]
  name
    | .open => "OPEN"
    | .noMoreBuffers => "NO_MORE_BUFFERS"
    | .noMorePages => "NO_MORE_PAGES"
    | .flushing => "FLUSHING"
    | .finished => "FINISHED"
    | .failed => "FAILED"

/-- Whether the buffer accepts nothing further. -/
def BufferState.isTerminal : BufferState → Bool
  | .finished | .failed => true
  | _ => false

/-- Which consumer gets a page. -/
inductive BufferType where
  /-- The one of the page's partition. -/
  | partitioned
  /-- All of them. -/
  | broadcast
  /-- Whichever asks first. -/
  | arbitrary
  /-- None; pages are thrown away. -/
  | discarding
  /-- The one that fetches it from storage. -/
  | spooling
deriving DecidableEq, Repr

instance : Named BufferType where
  all := [.partitioned, .broadcast, .arbitrary, .discarding, .spooling]
  name
    | .partitioned => "PARTITIONED"
    | .broadcast => "BROADCAST"
    | .arbitrary => "ARBITRARY"
    | .discarding => "DISCARDING"
    | .spooling => "SPOOLING"

/-- How an exchange spreads rows. -/
inductive ExchangeType where
  /-- All to one consumer. -/
  | gather
  /-- By a hash of the row. -/
  | repartition
  /-- All rows to all consumers. -/
  | replicate
deriving DecidableEq, Repr

instance : Named ExchangeType where
  all := [.gather, .repartition, .replicate]
  name
    | .gather => "GATHER"
    | .repartition => "REPARTITION"
    | .replicate => "REPLICATE"

/-- How far rows travel in an exchange. -/
inductive ExchangeScope where
  /-- Inside one task. -/
  | withinTask
  /-- To another stage, while it runs. -/
  | remoteStreaming
  /-- To another stage, through storage. -/
  | remoteMaterialized
deriving DecidableEq, Repr

instance : Named ExchangeScope where
  all := [.withinTask, .remoteStreaming, .remoteMaterialized]
  name
    | .withinTask => "LOCAL"
    | .remoteStreaming => "REMOTE_STREAMING"
    | .remoteMaterialized => "REMOTE_MATERIALIZED"

/-- A phase of an aggregation. -/
inductive AggregationStep where
  /-- In front of an exchange. -/
  | partialStep
  /-- Behind an exchange. -/
  | finalStep
  /-- Between two exchanges. -/
  | intermediate
  /-- All at once. -/
  | single
deriving DecidableEq, Repr

instance : Named AggregationStep where
  all := [.partialStep, .finalStep, .intermediate, .single]
  name
    | .partialStep => "PARTIAL"
    | .finalStep => "FINAL"
    | .intermediate => "INTERMEDIATE"
    | .single => "SINGLE"

/-- A phase of a limit. -/
inductive LimitStep where
  /-- In each task. -/
  | partialStep
  /-- For the whole query. -/
  | finalStep
deriving DecidableEq, Repr

instance : Named LimitStep where
  all := [.partialStep, .finalStep]
  name
    | .partialStep => "PARTIAL"
    | .finalStep => "FINAL"

/-- A placement that the engine itself defines. -/
inductive SystemPartitioning where
  /-- On one node. -/
  | single
  /-- On a fixed number of nodes. -/
  | fixed
  /-- Where the splits of the source are. -/
  | source
  /-- On as many nodes as the writing needs. -/
  | scaled
  /-- On the coordinator. -/
  | coordinatorOnly
  /-- Anywhere. -/
  | arbitrary
deriving DecidableEq, Repr

instance : Named SystemPartitioning where
  all := [.single, .fixed, .source, .scaled, .coordinatorOnly, .arbitrary]
  name
    | .single => "SINGLE"
    | .fixed => "FIXED"
    | .source => "SOURCE"
    | .scaled => "SCALED"
    | .coordinatorOnly => "COORDINATOR_ONLY"
    | .arbitrary => "ARBITRARY"

/-- How the engine itself chooses the partition of a row. -/
inductive SystemPartitionFunction where
  /-- Always the first. -/
  | single
  /-- By a hash of the partitioning columns. -/
  | hash
  /-- Each in turn. -/
  | roundRobin
  /-- All of them. -/
  | broadcast
  /-- Not told to clients. -/
  | unknown
deriving DecidableEq, Repr

instance : Named SystemPartitionFunction where
  all := [.single, .hash, .roundRobin, .broadcast, .unknown]
  name
    | .single => "SINGLE"
    | .hash => "HASH"
    | .roundRobin => "ROUND_ROBIN"
    | .broadcast => "BROADCAST"
    | .unknown => "UNKNOWN"

/-- Which hash puts the rows of a Hive table into buckets. -/
inductive BucketFunctionType where
  /-- The hash of Hive. -/
  | hiveCompatible
  /-- The hash of the engine. -/
  | prestoNative
deriving DecidableEq, Repr

instance : Named BucketFunctionType where
  all := [.hiveCompatible, .prestoNative]
  name
    | .hiveCompatible => "HIVE_COMPATIBLE"
    | .prestoNative => "PRESTO_NATIVE"

/-- What a column of a Hive table is. -/
inductive HiveColumnType where
  /-- A key of the partitions. -/
  | partitionKey
  /-- Stored data. -/
  | regular
  /-- Made up by the connector, such as `$path`. -/
  | synthesized
  /-- An aggregate that the connector computes. -/
  | aggregated
deriving DecidableEq, Repr

instance : Named HiveColumnType where
  all := [.partitionKey, .regular, .synthesized, .aggregated]
  name
    | .partitionKey => "PARTITION_KEY"
    | .regular => "REGULAR"
    | .synthesized => "SYNTHESIZED"
    | .aggregated => "AGGREGATED"

/-- A comparison of two values. -/
inductive ComparisonOperator where
  /-- The operator `=`. -/
  | equal
  /-- The operator `<>`. -/
  | notEqual
  /-- The operator `<`. -/
  | lessThan
  /-- The operator `<=`. -/
  | lessThanOrEqual
  /-- The operator `>`. -/
  | greaterThan
  /-- The operator `>=`. -/
  | greaterThanOrEqual
  /-- The operator `IS DISTINCT FROM`. -/
  | isDistinctFrom
deriving DecidableEq, Repr

instance : Named ComparisonOperator where
  all := [.equal, .notEqual, .lessThan, .lessThanOrEqual, .greaterThan, .greaterThanOrEqual,
    .isDistinctFrom]
  name
    | .equal => "EQUAL"
    | .notEqual => "NOT_EQUAL"
    | .lessThan => "LESS_THAN"
    | .lessThanOrEqual => "LESS_THAN_OR_EQUAL"
    | .greaterThan => "GREATER_THAN"
    | .greaterThanOrEqual => "GREATER_THAN_OR_EQUAL"
    | .isDistinctFrom => "IS_DISTINCT_FROM"

/-- The operator in SQL. -/
def ComparisonOperator.symbol : ComparisonOperator → String
  | .equal => "="
  | .notEqual => "<>"
  | .lessThan => "<"
  | .lessThanOrEqual => "<="
  | .greaterThan => ">"
  | .greaterThanOrEqual => ">="
  | .isDistinctFrom => "IS DISTINCT FROM"

/-- A connective of two truth values. -/
inductive LogicalOperator where
  /-- The operator `AND`. -/
  | and
  /-- The operator `OR`. -/
  | or
deriving DecidableEq, Repr

instance : Named LogicalOperator where
  all := [.and, .or]
  name
    | .and => "AND"
    | .or => "OR"

/-- An operation on two numbers. -/
inductive ArithmeticOperator where
  /-- The operator `+`. -/
  | add
  /-- The operator `-`. -/
  | subtract
  /-- The operator `*`. -/
  | multiply
  /-- The operator `/`. -/
  | divide
  /-- The operator `%`. -/
  | modulus
deriving DecidableEq, Repr

instance : Named ArithmeticOperator where
  all := [.add, .subtract, .multiply, .divide, .modulus]
  name
    | .add => "ADD"
    | .subtract => "SUBTRACT"
    | .multiply => "MULTIPLY"
    | .divide => "DIVIDE"
    | .modulus => "MODULUS"

/-- The operator in SQL. -/
def ArithmeticOperator.symbol : ArithmeticOperator → String
  | .add => "+"
  | .subtract => "-"
  | .multiply => "*"
  | .divide => "/"
  | .modulus => "%"

end QueryScope
