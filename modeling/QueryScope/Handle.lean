import QueryScope.Enumeration
import QueryScope.Identifier
import QueryScope.Json.Basic

/-!
# Connector handles

What the engine embeds of its connectors: where data is partitioned, in which transaction, and which
tables and columns are meant. A handle carries no mark of its kind; its fields tell which it is. The
engine's own handles wrap those of the connectors.
-/

namespace QueryScope

/-- The member of an object that is left out when there is no value. -/
def Json.optionalMember (key : String) : Option Json → List (String × Json)
  | some v => [(key, v)]
  | none => []

/-- The name of an enumeration's value as JSON. -/
def Json.ofNamed {α : Type} [Named α] (a : α) : Json :=
  .string (Named.name a)

/-! ## Partitionings -/

/-- How a connector, or the engine itself, spreads data over nodes. -/
inductive ConnectorPartitioning where
  /-- A placement of the engine, with the function that chooses partitions. -/
  | system (partitioning : SystemPartitioning) (function : SystemPartitionFunction)
  /-- The buckets of a Hive table; `maxCompatible` is the largest count that they can be regrouped
  to. -/
  | hive (bucketCount : UInt32) (function : BucketFunctionType) (maxCompatible : Option UInt32)
  /-- A generated table with its number of rows. -/
  | tpch (table : String) (totalRows : UInt64)
deriving DecidableEq

namespace ConnectorPartitioning

/-- The name under which the kind of handle is registered. -/
def variant : ConnectorPartitioning → String
  | .system .. => "system"
  | .hive .. => "hive"
  | .tpch .. => "tpch"

/-- Whether everything runs on one node. -/
def isSingleNode : ConnectorPartitioning → Bool
  | .system .single _ | .system .coordinatorOnly _ => true
  | _ => false

/-- Whether everything runs on the coordinator. -/
def isCoordinatorOnly : ConnectorPartitioning → Bool
  | .system .coordinatorOnly _ => true
  | _ => false

/-- A short label for plan listings. -/
def label : ConnectorPartitioning → String
  | .system partitioning _ => Named.name partitioning
  | .hive bucketCount _ _ => s!"hive:buckets={bucketCount}"
  | .tpch table _ => s!"tpch:{table}"

/-- The handle as JSON, its keys ascending. -/
def encode : ConnectorPartitioning → Json
  | .system partitioning function =>
    .ofMembers [("partitioning", .ofNamed partitioning), ("function", .ofNamed function)]
  | .hive bucketCount function maxCompatible =>
    .ofMembers
      ([("bucketCount", .ofUInt32 bucketCount), ("bucketFunctionType", .ofNamed function)] ++
        Json.optionalMember "maxCompatibleBucketCount" (maxCompatible.map .ofUInt32))
  | .tpch table totalRows =>
    .ofMembers [("table", .string table), ("totalRows", .ofUInt64 totalRows)]

end ConnectorPartitioning

/-! ## Transactions -/

/-- A connector's view of the transaction around it. -/
inductive ConnectorTransaction where
  /-- A transaction of the Hive metastore. -/
  | hive (transaction : TransactionId)
  /-- A transaction of the engine's system tables. -/
  | globalSystem (connector : ConnectorId) (transaction : TransactionId)
  /-- A connector to a remote system, which keeps no transaction. -/
  | remote
deriving DecidableEq

namespace ConnectorTransaction

/-- The name under which the kind of handle is registered. -/
def variant : ConnectorTransaction → String
  | .hive .. => "hive"
  | .globalSystem .. => "global-system"
  | .remote => "remote"

/-- The transaction's identifier, when the connector keeps one. -/
def id? : ConnectorTransaction → Option TransactionId
  | .hive transaction => some transaction
  | .globalSystem _ transaction => some transaction
  | .remote => none

/-- The handle as JSON, its keys ascending. -/
def encode : ConnectorTransaction → Json
  | .hive transaction => .ofMembers [("uuid", .string transaction.text)]
  | .globalSystem connector transaction =>
    .ofMembers
      [("connectorId", .string connector.text), ("transactionId", .string transaction.text)]
  | .remote => .object []

end ConnectorTransaction

/-! ## Tables -/

/-- The name of a table in its schema. -/
structure SchemaTable where
  /-- The schema. -/
  schema : String
  /-- The table. -/
  table : String
deriving DecidableEq

/-- Schema and table with a dot between them. -/
def SchemaTable.text (name : SchemaTable) : String :=
  s!"{name.schema}.{name.table}"

/-- A connector's reference to a table. -/
inductive ConnectorTable where
  /-- A generated table at a scale. -/
  | tpch (table : String) (scaleFactor : Double)
  /-- A table of the Hive metastore. -/
  | hive (schema table : String)
  /-- A table of the engine's own. -/
  | system (connector : ConnectorId) (schema table : String)
deriving DecidableEq

namespace ConnectorTable

/-- The name under which the kind of handle is registered. -/
def variant : ConnectorTable → String
  | .tpch .. => "tpch"
  | .hive .. => "hive"
  | .system .. => "system"

/-- The schema of generated tables is named after their scale; the scale 0.01 has a name of its
own, and a scale closer to it than `2 ^ -52` counts as the same. -/
def tpchSchema (scaleFactor : Double) : String :=
  let distance := (scaleFactor.sub (Double.ofDecimal false 1 (-2))).abs
  if distance.lt (Double.ofScaled false 1 (-52)) then "tiny"
  else s!"sf{scaleFactor.format FloatText.bare}"

/-- The table's name in its schema. -/
def schemaTable : ConnectorTable → SchemaTable
  | .tpch table scaleFactor => ⟨tpchSchema scaleFactor, table⟩
  | .hive schema table => ⟨schema, table⟩
  | .system _ schema table => ⟨schema, table⟩

/-- The handle as JSON, its keys ascending. -/
def encode : ConnectorTable → Json
  | .tpch table scaleFactor =>
    .ofMembers [("tableName", .string table), ("scaleFactor", .ofDouble scaleFactor)]
  | .hive schema table => .ofMembers [("schemaName", .string schema), ("tableName", .string table)]
  | .system connector schema table =>
    .ofMembers [("connectorId", .string connector.text), ("schemaName", .string schema),
      ("tableName", .string table)]

end ConnectorTable

/-! ## Columns -/

/-- A connector's reference to a column. -/
inductive ConnectorColumn where
  /-- A column of a system table. -/
  | system (column : String)
  /-- A column of a generated table, with its type. -/
  | tpch (column type : String)
  /-- A column of the Hive metastore; the index is negative for columns that the connector makes
  up. -/
  | hive (column hiveType : String) (index : Int32) (role : HiveColumnType)
      (comment : Option String)
deriving DecidableEq

namespace ConnectorColumn

/-- The name under which the kind of handle is registered. -/
def variant : ConnectorColumn → String
  | .system .. => "system"
  | .tpch .. => "tpch"
  | .hive .. => "hive"

/-- The column's name, as its connector knows it. -/
def name : ConnectorColumn → String
  | .system column => column
  | .tpch column _ => column
  | .hive column .. => column

/-- The handle as JSON, its keys ascending. -/
def encode : ConnectorColumn → Json
  | .system column => .ofMembers [("columnName", .string column)]
  | .tpch column type => .ofMembers [("columnName", .string column), ("type", .string type)]
  | .hive column hiveType index role comment =>
    .ofMembers
      ([("name", .string column), ("hiveType", .string hiveType),
        ("hiveColumnIndex", .ofInt32 index), ("columnType", .ofNamed role)] ++
        Json.optionalMember "comment" (comment.map .string))

end ConnectorColumn

/-! ## Handles of the engine -/

/-- A partitioning with the connector and the transaction that it belongs to. -/
structure PartitioningHandle where
  /-- The connector that owns the handle; the engine's own partitionings have none. -/
  connector : Option ConnectorId
  /-- The transaction in which the handle was made. -/
  transaction : Option ConnectorTransaction
  /-- The connector's partitioning. -/
  handle : ConnectorPartitioning
deriving DecidableEq

/-- The handle as JSON. -/
def PartitioningHandle.encode (h : PartitioningHandle) : Json :=
  .object
    (Json.optionalMember "connectorId" (h.connector.map (.string ·.text)) ++
      (Json.optionalMember "transactionHandle" (h.transaction.map (·.encode)) ++
        [("connectorHandle", h.handle.encode)]))

/-- A table with its connector and the transaction in which it was found. -/
structure TableHandle where
  /-- The connector. -/
  connector : ConnectorId
  /-- The connector's table. -/
  handle : ConnectorTable
  /-- The transaction. -/
  transaction : ConnectorTransaction
deriving DecidableEq

/-- The handle as JSON. -/
def TableHandle.encode (h : TableHandle) : Json :=
  .object [("connectorId", .string h.connector.text), ("connectorHandle", h.handle.encode),
    ("transaction", h.transaction.encode)]

/-- What an argument of a partitioning function is bound to. -/
inductive ArgumentBinding where
  /-- A column of the output. -/
  | column (symbol : String)
  /-- A constant, kept as it stands. -/
  | constant (value : Json)

/-- The binding as JSON. -/
def ArgumentBinding.encode : ArgumentBinding → Json
  | .column symbol => .object [("column", .string symbol)]
  | .constant value => .object [("constant", value)]

/-- A partitioning with the arguments of its function. -/
structure Partitioning where
  /-- The partitioning. -/
  handle : PartitioningHandle
  /-- The arguments. -/
  arguments : List ArgumentBinding

/-- The partitioning as JSON. -/
def Partitioning.encode (p : Partitioning) : Json :=
  .object [("handle", p.handle.encode), ("arguments", .array (p.arguments.map (·.encode)))]

/-- A partitioning with the order of the columns that it puts out. -/
structure PartitioningScheme where
  /-- The partitioning. -/
  partitioning : Partitioning
  /-- The symbols that are put out, in order. -/
  outputLayout : List String

/-- The scheme as JSON. -/
def PartitioningScheme.encode (s : PartitioningScheme) : Json :=
  .object
    [("partitioning", s.partitioning.encode), ("outputLayout", .ofStrings s.outputLayout)]

end QueryScope
