import QueryScope.Snapshot.Buffer

/-!
# Tasks

The status of a task, and the task with its output buffer.
-/

namespace QueryScope

/-- What a task tells of itself between full snapshots. -/
structure TaskStatus where
  /-- The task. -/
  id : TaskId
  /-- The number of the status, which only grows. -/
  version : UInt64
  /-- How far the task has come. -/
  state : TaskState
  /-- Where the task is served. -/
  self : String
  /-- Drivers over partitioned splits that wait. -/
  queuedDrivers : UInt32
  /-- Drivers over partitioned splits that run. -/
  runningDrivers : UInt32
  /-- Bytes of user memory that the task holds. -/
  memoryReservation : UInt64
deriving DecidableEq

namespace TaskStatus

/-- A status from its counters. -/
def make (id : TaskId) (version : Int64) (state : TaskState) (self : String)
    (queued running memory : Int64) : Except FieldFault TaskStatus :=
  return {
    id, state
    version := ← nonNegative "version" version
    self := ← nonEmpty "self" self
    queuedDrivers := ← nonNegative32 "queuedPartitionedDrivers" queued
    runningDrivers := ← nonNegative32 "runningPartitionedDrivers" running
    memoryReservation := ← nonNegative "memoryReservationInBytes" memory }

/-- The status as JSON. -/
def encode (s : TaskStatus) : Json :=
  .object [("taskId", .string s.id.text), ("version", .ofUInt64 s.version),
    ("state", .ofNamed s.state), ("self", .string s.self),
    ("queuedPartitionedDrivers", .ofUInt32 s.queuedDrivers),
    ("runningPartitionedDrivers", .ofUInt32 s.runningDrivers),
    ("memoryReservationInBytes", .ofUInt64 s.memoryReservation)]

end TaskStatus

/-- A snapshot of a task. -/
structure Task where
  /-- The status. -/
  status : TaskStatus
  /-- When the task was last heard of, as the engine writes it. -/
  lastHeartbeat : String
  /-- The output buffer. -/
  output : OutputBuffer
  /-- The plan nodes that get no more splits. -/
  noMoreSplits : List PlanNodeId
  /-- Whether the task still waits for its plan. -/
  needsPlan : Bool
deriving DecidableEq

namespace Task

/-- A snapshot from its parts. -/
def make (status : TaskStatus) (lastHeartbeat : String) (output : OutputBuffer)
    (noMoreSplits : List PlanNodeId) (needsPlan : Bool) : Except FieldFault Task :=
  return {
    status, output, noMoreSplits, needsPlan
    lastHeartbeat := ← nonEmpty "lastHeartbeat" lastHeartbeat }

/-- The identifier of the task. -/
def id (t : Task) : TaskId :=
  t.status.id

/-- The task as JSON. -/
def encode (t : Task) : Json :=
  .object [("taskStatus", t.status.encode), ("lastHeartbeat", .string t.lastHeartbeat),
    ("outputBuffers", t.output.encode),
    ("noMoreSplits", .array (t.noMoreSplits.map (.string ·.text))),
    ("needsPlan", .bool t.needsPlan)]

end Task

end QueryScope
