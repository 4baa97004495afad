import QueryScope.Snapshot.MemoryPool
import QueryScope.Snapshot.Query

/-!
# Records and interfaces

The names of what payloads are made of. A record always has the same fields. An interface is an
abstract position whose object may be one of several variants; some interfaces have a key that names
the variant. Clients may add interfaces of their own, whose values are JSON.
-/

namespace QueryScope

/-- A type of object with fixed fields. -/
inductive Record where
  /-- Counters of a partition's pages. -/
  | pageBuffer
  /-- The buffer of a consumer. -/
  | consumerBuffer
  /-- The output buffer of a task. -/
  | outputBuffer
  /-- The status of a task. -/
  | taskStatus
  /-- A task. -/
  | task
  /-- A stage. -/
  | stage
  /-- The counters of a query. -/
  | queryStats
  /-- The failure of a query. -/
  | failure
  /-- A query. -/
  | query
  /-- A memory pool. -/
  | memoryPool
  /-- A fragment of a plan. -/
  | fragment
  /-- A partitioning with its connector. -/
  | partitioningHandle
  /-- A partitioning with its arguments. -/
  | partitioning
  /-- A partitioning with its output. -/
  | partitioningScheme
  /-- A table with its connector. -/
  | tableHandle
  /-- The binding of an argument. -/
  | argumentBinding
deriving DecidableEq, Repr

/-- What a record is read as. -/
def Record.Value : Record → Type
  | .pageBuffer => PageBuffer
  | .consumerBuffer => ConsumerBuffer
  | .outputBuffer => OutputBuffer
  | .taskStatus => TaskStatus
  | .task => Task
  | .stage => Stage
  | .queryStats => QueryStats
  | .failure => Failure
  | .query => Query
  | .memoryPool => MemoryPool
  | .fragment => Fragment
  | .partitioningHandle => PartitioningHandle
  | .partitioning => Partitioning
  | .partitioningScheme => PartitioningScheme
  | .tableHandle => TableHandle
  | .argumentBinding => ArgumentBinding

/-- An abstract position. -/
inductive Interface where
  /-- A partitioning of a connector. -/
  | partitioning
  /-- A transaction of a connector. -/
  | transaction
  /-- A table of a connector. -/
  | table
  /-- A column of a connector. -/
  | column
  /-- An expression. -/
  | expression
  /-- A node of a plan. -/
  | planNode
  /-- An interface that a client adds. -/
  | custom (name : String) (tagKey : Option String)
deriving DecidableEq, Repr

namespace Interface

/-- What an object at the position is read as. -/
def Value : Interface → Type
  | .partitioning => ConnectorPartitioning
  | .transaction => ConnectorTransaction
  | .table => ConnectorTable
  | .column => ConnectorColumn
  | .expression => Expression
  | .planNode => PlanNode
  | .custom _ _ => Json

/-- The interface's name in messages. -/
def name : Interface → String
  | .partitioning => "ConnectorPartitioningHandle"
  | .transaction => "ConnectorTransactionHandle"
  | .table => "ConnectorTableHandle"
  | .column => "ColumnHandle"
  | .expression => "Expression"
  | .planNode => "PlanNode"
  | .custom name _ => name

/-- The key whose value names the variant. -/
def tagKey : Interface → Option String
  | .expression => some "@type"
  | .planNode => some "@type"
  | .custom _ tagKey => tagKey
  | _ => none

end Interface

end QueryScope
