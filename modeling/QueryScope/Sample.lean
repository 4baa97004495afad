import QueryScope.Json.Printer
import QueryScope.Number.Reading

/-!
# Sample payloads

Payloads as the engine publishes them, with exactly its keys, to try things out on. The keys of
every object ascend.
-/

namespace QueryScope.Sample

/-- An object with its keys ascending. -/
def object (members : List (String × Json)) : Json :=
  .ofMembers members

/-- An integer. -/
def integer (n : Int64) : Json :=
  .ofInt64 n

/-! ## Buffers -/

/-- The counters of a partition. -/
def pageBuffer (partition pages : Int64) : Json :=
  object [("partition", integer partition), ("bufferedPages", integer pages),
    ("bufferedBytes", integer (pages * 1024)), ("rowsAdded", integer 100),
    ("pagesAdded", integer pages)]

/-- The integer that a text denotes, a sign allowed; zero if it denotes none of 64 bits. -/
def partitionOf (id : String) : Int64 :=
  let (negative, digits) := match id.toList with
    | '-' :: rest => (true, rest)
    | '+' :: rest => (false, rest)
    | rest => (false, rest)
  let magnitude := digitsValue digits
  let value : Int := if negative then -magnitude else magnitude
  if digits ≠ [] ∧ digits.all Char.isDigit ∧ Int64.minValue.toInt ≤ value ∧
      value ≤ Int64.maxValue.toInt then Int64.ofInt value
  else 0

/-- The buffer of a consumer, whose identifier names the partition too. -/
def consumerBuffer (id : String) (pages sent : Int64) : Json :=
  object [("bufferId", .string id), ("finished", .bool false), ("bufferedPages", integer pages),
    ("pagesSent", integer sent), ("pageBufferInfo", pageBuffer (partitionOf id) pages)]

/-- An output buffer over the buffers of consumers. -/
def outputBuffer (buffers : List Json) : Json :=
  object [("type", .string "PARTITIONED"), ("state", .string "OPEN"),
    ("canAddBuffers", .bool false), ("canAddPages", .bool true),
    ("totalBufferedBytes", integer 4096), ("totalBufferedPages", integer 4),
    ("totalRowsSent", integer 1000), ("totalPagesSent", integer 10), ("buffers", .array buffers)]

/-! ## Expressions and plans -/

/-- A placeholder. -/
def parameter (position : Int64) : Json :=
  object [("@type", .string "parameter"), ("position", integer position)]

/-- A comparison. -/
def comparison (operator : String) (left right : Json) : Json :=
  object [("@type", .string "comparison"), ("operator", .string operator), ("left", left),
    ("right", right)]

/-- Whether two parameters are equal. -/
def parameterComparison : Json :=
  comparison "EQUAL" (parameter 0) (parameter 1)

/-- Whether the total price is above a bound. -/
def pricePredicate : Json :=
  comparison "GREATER_THAN"
    (object [("@type", .string "symbol"), ("name", .string "totalprice")])
    (object [("@type", .string "double"), ("value", .ofDouble (Double.ofDecimal false 10005 (-1)))])

/-- A column of a generated table. -/
def column (name type : String) : Json :=
  object [("columnName", .string name), ("type", .string type)]

/-- A scan of the generated orders. -/
def ordersScan (id : String) : Json :=
  object [("@type", .string "tablescan"), ("id", .string id),
    ("table", object [("connectorId", .string "tpch"),
      ("connectorHandle", object [("tableName", .string "orders"),
        ("scaleFactor", .ofDouble (Double.ofDecimal false 1 (-2)))]),
      ("transaction", object [])]),
    ("outputSymbols", .ofStrings ["orderkey", "totalprice"]),
    ("assignments", object [("orderkey", column "orderkey" "bigint"),
      ("totalprice", column "totalprice" "double")])]

/-- A partitioning of the engine's own. -/
def systemPartitioning (partitioning function : String) : Json :=
  object [("connectorHandle",
    object [("partitioning", .string partitioning), ("function", .string function)])]

/-- Output on a single node. -/
def singleOutput (layout : List String) : Json :=
  object [
    ("partitioning", object [("handle", systemPartitioning "SINGLE" "SINGLE"),
      ("arguments", .array [])]),
    ("outputLayout", .ofStrings layout)]

/-- A fragment that counts the orders above a price, in part. -/
def sourceFragment : Json :=
  object [("id", .string "1"),
    ("root", object [("@type", .string "aggregation"), ("id", .string "2"),
      ("source", object [("@type", .string "filter"), ("id", .string "1"),
        ("source", ordersScan "0"), ("predicate", pricePredicate)]),
      ("aggregations", object [("count", object [("@type", .string "functionCall"),
        ("name", .string "count"), ("arguments", .array [])])]),
      ("groupingKeys", .array []), ("step", .string "PARTIAL")]),
    ("partitioning", systemPartitioning "SOURCE" "UNKNOWN"),
    ("partitioningScheme", singleOutput ["count"])]

/-- A fragment that gathers the count and names the column of the result. -/
def outputFragment : Json :=
  object [("id", .string "0"),
    ("root", object [("@type", .string "output"), ("id", .string "4"),
      ("source", object [("@type", .string "remoteSource"), ("id", .string "3"),
        ("sourceFragmentIds", .ofStrings ["1"]), ("outputs", .ofStrings ["count"]),
        ("exchangeType", .string "GATHER")]),
      ("columnNames", .ofStrings ["_col0"]), ("outputs", .ofStrings ["count"])]),
    ("partitioning", systemPartitioning "SINGLE" "SINGLE"),
    ("partitioningScheme", singleOutput ["count"])]

/-! ## Tasks -/

/-- What varies among sample tasks. -/
structure Task where
  /-- The task. -/
  id : String
  /-- How far it has come. -/
  state : String := "RUNNING"
  /-- The buffers of its consumers. -/
  buffers : List Json := [consumerBuffer "0" 0 0]
  /-- Whether it waits for its plan. -/
  needsPlan : Bool := false

/-- The payload of a task. -/
def Task.payload (t : Task) : Json :=
  object [
    ("taskStatus", object [("taskId", .string t.id), ("version", integer 7),
      ("state", .string t.state), ("self", .string s!"http://worker-1:8080/v1/task/{t.id}"),
      ("queuedPartitionedDrivers", integer 0), ("runningPartitionedDrivers", integer 2),
      ("memoryReservationInBytes", integer 1048576)]),
    ("lastHeartbeat", .string "2024-01-01T12:00:02.000Z"),
    ("outputBuffers", outputBuffer t.buffers), ("noMoreSplits", .array []),
    ("needsPlan", .bool t.needsPlan)]

/-! ## Stages -/

/-- What varies among sample stages. -/
structure Stage where
  /-- The stage. -/
  id : String
  /-- How far it has come. -/
  state : String := "RUNNING"
  /-- The fragment that it executes. -/
  plan : Option Json := none
  /-- Its tasks. -/
  tasks : List Json := []
  /-- The stages that feed it. -/
  subStages : List Json := []

/-- A member that is left out when there is no value. -/
def optional (key : String) (value : Option Json) : List (String × Json) :=
  (value.map fun v => (key, v)).toList

/-- The payload of a stage. -/
def Stage.payload (s : Stage) : Json :=
  object ([("stageId", .string s.id), ("state", .string s.state), ("tasks", .array s.tasks),
    ("subStages", .array s.subStages)] ++ optional "plan" s.plan)

/-! ## Queries -/

/-- The query of the samples. -/
def queryId : String := "20240101_120000_00003_abcde"

/-- The counters of a query. -/
def queryStats : Json :=
  object [("createTime", .string "2024-01-01T12:00:00.000Z"), ("elapsedTime", .string "2.50s"),
    ("totalTasks", integer 2), ("runningTasks", integer 1), ("completedTasks", integer 1),
    ("totalDrivers", integer 8), ("queuedDrivers", integer 0), ("runningDrivers", integer 4),
    ("completedDrivers", integer 4), ("rawInputDataSize", .string "1.50MB"),
    ("rawInputPositions", integer 15000), ("peakUserMemoryReservation", .string "256kB")]

/-- The stage that counts in part. -/
def sourceStage : Json :=
  Stage.payload {
    id := s!"{queryId}.1"
    plan := some sourceFragment
    tasks := [Task.payload { id := s!"{queryId}.1.0.0" }] }

/-- The stage that puts out the result. -/
def outputStage : Json :=
  Stage.payload {
    id := s!"{queryId}.0"
    plan := some outputFragment
    tasks := [Task.payload {
      id := s!"{queryId}.0.0.0"
      buffers := [consumerBuffer "0" 3 10, consumerBuffer "1" 1 2] }]
    subStages := [sourceStage] }

/-- What varies among sample queries; a query of two stages runs if nothing else is said. -/
structure Query where
  /-- How far the query has come. -/
  state : String := "RUNNING"
  /-- The stage that puts out the result. -/
  outputStage : Option Json := some outputStage
  /-- Why it failed. -/
  failure : Option Json := none
  /-- Its transaction. -/
  transaction : Option String := some "8f14e45f-ceea-467f-a0e6-bd7d4f1c2e5a"

/-- The query failed for this reason. -/
def Query.failed (q : Query) (failure : Json) : Query :=
  { q with state := "FAILED", failure := some failure }

/-- The payload of a query. -/
def Query.payload (q : Query) : Json :=
  object ([("queryId", .string queryId), ("state", .string q.state),
    ("memoryPool", .string "general"), ("scheduled", .bool true),
    ("self", .string s!"http://coordinator:8080/v1/query/{queryId}"),
    ("query", .string "SELECT count(*) FROM orders WHERE totalprice > 1000.5"),
    ("queryStats", queryStats)] ++
      optional "transactionId" (q.transaction.map .string) ++
      optional "outputStage" q.outputStage ++
      optional "failureInfo" q.failure)

/-- A failure for want of memory, with its cause. -/
def memoryFailure : Json :=
  object [("type", .string "com.facebook.presto.ExceededMemoryLimitException"),
    ("message", .string "Query exceeded per-node user memory limit of 1GB"),
    ("cause", object [("type", .string "java.lang.OutOfMemoryError"),
      ("stack", .ofStrings ["java.nio.Bits.reserveMemory(Bits.java:694)"])]),
    ("stack", .ofStrings ["com.facebook.presto.memory.QueryContext." ++
      "enforceUserMemoryLimit(QueryContext.java:309)"])]

end QueryScope.Sample
