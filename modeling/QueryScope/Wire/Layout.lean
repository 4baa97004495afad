import QueryScope.Wire.Codec

/-!
# The fields of the records

Every record's object: its fields in the order in which they are read, and the function that puts
them together. A fault of an early field wins over one of a later field, and every fault of a single
field wins over those that the function finds.
-/

namespace QueryScope

open Codec (bool string strings int64 uint64 named nameId)

/-- The counters of a partition's pages. -/
def PageBuffer.body : Body PageBuffer :=
  .checked <| Fields.pure PageBuffer.make
    |>.required "partition" int64
    |>.required "bufferedPages" int64
    |>.required "bufferedBytes" int64
    |>.required "rowsAdded" int64
    |>.required "pagesAdded" int64

/-- The buffer of a consumer. -/
def ConsumerBuffer.body : Body ConsumerBuffer :=
  .checked <| Fields.pure ConsumerBuffer.make
    |>.required "bufferId" (nameId .outputBuffer)
    |>.required "finished" bool
    |>.required "bufferedPages" int64
    |>.required "pagesSent" int64
    |>.required "pageBufferInfo" (.record .pageBuffer)

/-- The output buffer of a task. -/
def OutputBuffer.body : Body OutputBuffer :=
  .checked <| Fields.pure OutputBuffer.make
    |>.required "type" (named BufferType)
    |>.required "state" (named BufferState)
    |>.required "canAddBuffers" bool
    |>.required "canAddPages" bool
    |>.required "totalBufferedBytes" int64
    |>.required "totalBufferedPages" int64
    |>.required "totalRowsSent" int64
    |>.required "totalPagesSent" int64
    |>.required "buffers" (.list (.record .consumerBuffer))

/-- The status of a task. -/
def TaskStatus.body : Body TaskStatus :=
  .checked <| Fields.pure TaskStatus.make
    |>.required "taskId" Codec.taskId
    |>.required "version" int64
    |>.required "state" (named TaskState)
    |>.required "self" string
    |>.required "queuedPartitionedDrivers" int64
    |>.required "runningPartitionedDrivers" int64
    |>.required "memoryReservationInBytes" int64

/-- A task. -/
def Task.body : Body Task :=
  .checked <| Fields.pure Task.make
    |>.required "taskStatus" (.record .taskStatus)
    |>.required "lastHeartbeat" string
    |>.required "outputBuffers" (.record .outputBuffer)
    |>.required "noMoreSplits" (.list (nameId .planNode))
    |>.required "needsPlan" bool

/-- A stage. -/
def Stage.body : Body Stage :=
  .checked <| Fields.pure Stage.make
    |>.required "stageId" Codec.stageId
    |>.required "state" (named StageState)
    |>.optional "plan" (.record .fragment)
    |>.required "tasks" (.list (.record .task))
    |>.required "subStages" (.list (.record .stage))

/-- The counters of a query. -/
def QueryStats.body : Body QueryStats :=
  .checked <| Fields.pure QueryStats.make
    |>.required "createTime" string
    |>.required "elapsedTime" Codec.measure
    |>.required "totalTasks" int64
    |>.required "runningTasks" int64
    |>.required "completedTasks" int64
    |>.required "totalDrivers" int64
    |>.required "queuedDrivers" int64
    |>.required "runningDrivers" int64
    |>.required "completedDrivers" int64
    |>.required "rawInputDataSize" Codec.measure
    |>.required "rawInputPositions" int64
    |>.required "peakUserMemoryReservation" Codec.measure

/-- The failure of a query. -/
def Failure.body : Body Failure :=
  .checked <| Fields.pure Failure.make
    |>.required "type" string
    |>.optional "message" string
    |>.optional "cause" (.record .failure)
    |>.defaulted "stack" strings []

/-- A query. -/
def Query.body : Body Query :=
  .checked <| Fields.pure Query.make
    |>.required "queryId" Codec.queryId
    |>.required "state" (named QueryState)
    |>.required "memoryPool" (nameId .memoryPool)
    |>.required "scheduled" bool
    |>.required "self" string
    |>.required "query" string
    |>.required "queryStats" (.record .queryStats)
    |>.optional "transactionId" Codec.transactionId
    |>.optional "outputStage" (.record .stage)
    |>.optional "failureInfo" (.record .failure)

/-- Reservations by query. -/
def MemoryPool.reservationsCodec : Codec (List (QueryId × UInt64)) :=
  .keyed (fun key => (QueryId.parse key).mapError (·.reason)) uint64

/-- A memory pool. -/
def MemoryPool.body : Body MemoryPool :=
  .checked <| Fields.pure MemoryPool.make
    |>.required "maxBytes" int64
    |>.required "reservedBytes" int64
    |>.required "reservedRevocableBytes" int64
    |>.defaulted "queryMemoryReservations" MemoryPool.reservationsCodec []
    |>.defaulted "queryMemoryRevocableReservations" MemoryPool.reservationsCodec []

/-- A fragment of a plan. -/
def Fragment.body : Body Fragment :=
  .record <| Fields.pure Fragment.mk
    |>.required "id" (nameId .fragment)
    |>.required "root" (.interface .planNode)
    |>.required "partitioning" (.record .partitioningHandle)
    |>.required "partitioningScheme" (.record .partitioningScheme)

/-- A partitioning with its connector. -/
def PartitioningHandle.body : Body PartitioningHandle :=
  .record <| Fields.pure PartitioningHandle.mk
    |>.optional "connectorId" (nameId .connector)
    |>.optional "transactionHandle" (.interface .transaction)
    |>.required "connectorHandle" (.interface .partitioning)

/-- A partitioning with its arguments. -/
def Partitioning.body : Body Partitioning :=
  .record <| Fields.pure Partitioning.mk
    |>.required "handle" (.record .partitioningHandle)
    |>.required "arguments" (.list (.record .argumentBinding))

/-- A partitioning with its output. -/
def PartitioningScheme.body : Body PartitioningScheme :=
  .record <| Fields.pure PartitioningScheme.mk
    |>.required "partitioning" (.record .partitioning)
    |>.required "outputLayout" strings

/-- A table with its connector. -/
def TableHandle.body : Body TableHandle :=
  .record <| Fields.pure TableHandle.mk
    |>.required "connectorId" (nameId .connector)
    |>.required "connectorHandle" (.interface .table)
    |>.required "transaction" (.interface .transaction)

/-- The binding of an argument: a column if the key is there at all, and otherwise a constant. -/
def ArgumentBinding.body : Body ArgumentBinding :=
  .whenPresent "column"
    (.record <| Fields.pure ArgumentBinding.column |>.required "column" string)
    (.record <| Fields.pure ArgumentBinding.constant |>.verbatim "constant" .unboundArgument)

/-- The object of a record. -/
def Record.body : (r : Record) → Body r.Value
  | .pageBuffer => PageBuffer.body
  | .consumerBuffer => ConsumerBuffer.body
  | .outputBuffer => OutputBuffer.body
  | .taskStatus => TaskStatus.body
  | .task => Task.body
  | .stage => Stage.body
  | .queryStats => QueryStats.body
  | .failure => Failure.body
  | .query => Query.body
  | .memoryPool => MemoryPool.body
  | .fragment => Fragment.body
  | .partitioningHandle => PartitioningHandle.body
  | .partitioning => Partitioning.body
  | .partitioningScheme => PartitioningScheme.body
  | .tableHandle => TableHandle.body
  | .argumentBinding => ArgumentBinding.body

end QueryScope
