import QueryScope.Measure
import QueryScope.Snapshot.Stage

/-!
# Queries

The snapshot of a query: its counters, its tree of stages and, when it failed, why.
-/

namespace QueryScope

/-- The counters of a whole query. -/
structure QueryStats where
  /-- When the query was created, as the engine writes it. -/
  createTime : String
  /-- The time since then. -/
  elapsedTime : Duration
  /-- Tasks so far. -/
  totalTasks : UInt32
  /-- Tasks that run. -/
  runningTasks : UInt32
  /-- Tasks that have ended. -/
  completedTasks : UInt32
  /-- Drivers so far. -/
  totalDrivers : UInt32
  /-- Drivers that wait. -/
  queuedDrivers : UInt32
  /-- Drivers that run. -/
  runningDrivers : UInt32
  /-- Drivers that have ended. -/
  completedDrivers : UInt32
  /-- What was read from connectors. -/
  rawInputDataSize : DataSize
  /-- Rows that were read from connectors. -/
  rawInputPositions : UInt64
  /-- The most user memory that was held at once. -/
  peakUserMemory : DataSize
deriving DecidableEq

namespace QueryStats

/-- Counters from signed numbers. No more tasks or drivers may have ended than there are. -/
def make (createTime : String) (elapsedTime : Duration)
    (totalTasks runningTasks completedTasks : Int64)
    (totalDrivers queuedDrivers runningDrivers completedDrivers : Int64)
    (rawInputDataSize : DataSize) (rawInputPositions : Int64) (peakUserMemory : DataSize) :
    Except FieldFault QueryStats := do
  let stats : QueryStats := {
    elapsedTime, rawInputDataSize, peakUserMemory
    createTime := ← nonEmpty "createTime" createTime
    totalTasks := ← nonNegative32 "totalTasks" totalTasks
    runningTasks := ← nonNegative32 "runningTasks" runningTasks
    completedTasks := ← nonNegative32 "completedTasks" completedTasks
    totalDrivers := ← nonNegative32 "totalDrivers" totalDrivers
    queuedDrivers := ← nonNegative32 "queuedDrivers" queuedDrivers
    runningDrivers := ← nonNegative32 "runningDrivers" runningDrivers
    completedDrivers := ← nonNegative32 "completedDrivers" completedDrivers
    rawInputPositions := ← nonNegative "rawInputPositions" rawInputPositions }
  atMost "completedTasks" stats.completedTasks.toUInt64 "totalTasks" stats.totalTasks.toUInt64
  atMost "completedDrivers" stats.completedDrivers.toUInt64
    "totalDrivers" stats.totalDrivers.toUInt64
  return stats

/-- The part of the drivers that has ended, once there are drivers. -/
def progress? (s : QueryStats) : Option Double :=
  if 0 < s.totalDrivers then
    some ((Double.ofNat s.completedDrivers.toNat).div (Double.ofNat s.totalDrivers.toNat))
  else none

/-- The counters as JSON. -/
def encode (s : QueryStats) : Json :=
  .object [("createTime", .string s.createTime), ("elapsedTime", .string s.elapsedTime.text),
    ("totalTasks", .ofUInt32 s.totalTasks), ("runningTasks", .ofUInt32 s.runningTasks),
    ("completedTasks", .ofUInt32 s.completedTasks), ("totalDrivers", .ofUInt32 s.totalDrivers),
    ("queuedDrivers", .ofUInt32 s.queuedDrivers), ("runningDrivers", .ofUInt32 s.runningDrivers),
    ("completedDrivers", .ofUInt32 s.completedDrivers),
    ("rawInputDataSize", .string s.rawInputDataSize.text),
    ("rawInputPositions", .ofUInt64 s.rawInputPositions),
    ("peakUserMemoryReservation", .string s.peakUserMemory.text)]

end QueryStats

/-- Why a query failed, with what caused it. -/
structure Failure where
  /-- The class of the failure. -/
  type : String
  /-- The message, if there is one. -/
  message : Option String
  /-- The failure behind it. -/
  cause : Option Failure
  /-- The stack, innermost frame first. -/
  stack : List String

namespace Failure

/-- A failure from its parts. -/
def make (type : String) (message : Option String) (cause : Option Failure)
    (stack : List String) : Except FieldFault Failure :=
  return { message, cause, stack, type := ← nonEmpty "type" type }

/-- The failure followed by its causes. -/
def chain : Failure → List Failure
  | ⟨type, message, none, stack⟩ => [⟨type, message, none, stack⟩]
  | ⟨type, message, some cause, stack⟩ => ⟨type, message, some cause, stack⟩ :: cause.chain

/-- The innermost cause. -/
def rootCause (f : Failure) : Failure :=
  f.chain.getLastD f

/-- The failure as JSON. -/
def encode : Failure → Json
  | ⟨type, message, cause, stack⟩ =>
    .object
      ([("type", .string type)] ++
        (Json.optionalMember "message" (message.map .string) ++
          ((match cause with
            | none => []
            | some cause => [("cause", cause.encode)]) ++
            (if stack = [] then [] else [("stack", .ofStrings stack)]))))

end Failure

/-- A snapshot of a query. -/
structure Query where
  /-- The query. -/
  id : QueryId
  /-- How far the query has come. -/
  state : QueryState
  /-- The memory pool that it draws on. -/
  memoryPool : MemoryPoolId
  /-- Whether every stage is scheduled. -/
  scheduled : Bool
  /-- Where the query is served. -/
  self : String
  /-- Its text. -/
  query : String
  /-- Its counters. -/
  stats : QueryStats
  /-- Its transaction, once there is one. -/
  transaction : Option TransactionId
  /-- The stage that puts out the result, once the query is planned. -/
  outputStage : Option Stage
  /-- Why it failed. -/
  failure : Option Failure

namespace Query

/-- A snapshot from its parts. The output stage has to belong to the query. -/
def make (id : QueryId) (state : QueryState) (memoryPool : MemoryPoolId) (scheduled : Bool)
    (self query : String) (stats : QueryStats) (transaction : Option TransactionId)
    (outputStage : Option Stage) (failure : Option Failure) : Except FieldFault Query := do
  match outputStage with
  | some stage =>
    if stage.id.query ≠ id then
      throw ⟨"outputStage", .invalid (.foreignStage stage.id.text)⟩
  | none => pure ()
  return {
    id, state, memoryPool, scheduled, query, stats, transaction, outputStage, failure
    self := ← nonEmpty "self" self }

/-- All stages, every stage before those that feed it. -/
def stages (q : Query) : List Stage :=
  preorder q.outputStage.toList

/-- The first stage with an identifier. -/
def findStage? (q : Query) (id : StageId) : Option Stage :=
  q.stages.find? (·.id = id)

/-- The fragments of the planned stages, in the order of the stages. -/
def fragments (q : Query) : List Fragment :=
  q.stages.filterMap (·.plan)

/-- The snapshot as JSON. -/
def encode (q : Query) : Json :=
  .object
    ([("queryId", .string q.id.text), ("state", .ofNamed q.state),
      ("memoryPool", .string q.memoryPool.text), ("scheduled", .bool q.scheduled),
      ("self", .string q.self), ("query", .string q.query), ("queryStats", q.stats.encode)] ++
      (Json.optionalMember "transactionId" (q.transaction.map (.string ·.text)) ++
        (Json.optionalMember "outputStage" (q.outputStage.map (·.encode)) ++
          Json.optionalMember "failureInfo" (q.failure.map (·.encode)))))

end Query

end QueryScope
