import QueryScope.Wire.Decode

/-!
# The standard registry

The handles of the connectors that come with the engine, the kinds of expressions and the kinds of
plan nodes.
-/

namespace QueryScope

open Codec (bool string strings uint32 uint64 named nameId)

/-! ## Handles -/

/-- The partitionings. -/
def ConnectorPartitioning.variants : List (Variant .partitioning) :=
  [.structural "system" ["partitioning", "function"] <|
    .record <| Fields.pure ConnectorPartitioning.system
      |>.required "partitioning" (named SystemPartitioning)
      |>.required "function" (named SystemPartitionFunction),
  .structural "hive" ["bucketCount", "bucketFunctionType"] <|
    .record <| Fields.pure ConnectorPartitioning.hive
      |>.required "bucketCount" uint32
      |>.required "bucketFunctionType" (named BucketFunctionType)
      |>.optional "maxCompatibleBucketCount" uint32,
  .structural "tpch" ["table", "totalRows"] <|
    .record <| Fields.pure ConnectorPartitioning.tpch
      |>.required "table" string
      |>.required "totalRows" uint64]

/-- The transactions. The last has no fields, so that it is chosen where nothing else fits; it is
meant by the empty object only. -/
def ConnectorTransaction.variants : List (Variant .transaction) :=
  [.structural "hive" ["uuid"] <|
    .record <| Fields.pure ConnectorTransaction.hive
      |>.required "uuid" Codec.transactionId,
  .structural "global-system" ["connectorId", "transactionId"] <|
    .record <| Fields.pure ConnectorTransaction.globalSystem
      |>.required "connectorId" (nameId .connector)
      |>.required "transactionId" Codec.transactionId,
  .structural "remote" [] <|
    .memberless (Interface.name .transaction) ConnectorTransaction.remote]

/-- The tables. -/
def ConnectorTable.variants : List (Variant .table) :=
  [.structural "tpch" ["tableName", "scaleFactor"] <|
    .record <| Fields.pure ConnectorTable.tpch
      |>.required "tableName" string
      |>.required "scaleFactor" Codec.double,
  .structural "hive" ["schemaName", "tableName"] <|
    .record <| Fields.pure ConnectorTable.hive
      |>.required "schemaName" string
      |>.required "tableName" string,
  .structural "system" ["connectorId", "schemaName", "tableName"] <|
    .record <| Fields.pure ConnectorTable.system
      |>.required "connectorId" (nameId .connector)
      |>.required "schemaName" string
      |>.required "tableName" string]

/-- The columns. -/
def ConnectorColumn.variants : List (Variant .column) :=
  [.structural "system" ["columnName"] <|
    .record <| Fields.pure ConnectorColumn.system
      |>.required "columnName" string,
  .structural "tpch" ["columnName", "type"] <|
    .record <| Fields.pure ConnectorColumn.tpch
      |>.required "columnName" string
      |>.required "type" string,
  .structural "hive" ["name", "hiveType", "hiveColumnIndex", "columnType"] <|
    .record <| Fields.pure ConnectorColumn.hive
      |>.required "name" string
      |>.required "hiveType" string
      |>.required "hiveColumnIndex" Codec.int32
      |>.required "columnType" (named HiveColumnType)
      |>.optional "comment" string]

/-! ## Expressions -/

namespace Expression

/-- An operand. -/
def operandCodec : Codec Expression := .interface .expression

/-- A kind of expression, whose tag is its name. -/
def variantOf (kind : String) (fields : Fields Expression) : Variant .expression :=
  .tagged kind kind (.record fields)

/-- A kind of expression with an operator and two operands. -/
def binaryVariant {ω : Type} [Named ω] (kind : String)
    (build : ω → Expression → Expression → Expression) : Variant .expression :=
  variantOf kind <| Fields.pure build
    |>.required "operator" (named ω)
    |>.required "left" operandCodec
    |>.required "right" operandCodec

/-- The kinds of expressions. -/
def variants : List (Variant .expression) :=
  [variantOf "identifier" <| Fields.pure identifier |>.required "value" Codec.string,
  variantOf "symbol" <| Fields.pure symbol |>.required "name" Codec.string,
  variantOf "long" <| Fields.pure long |>.required "value" Codec.int64,
  variantOf "double" <| Fields.pure double |>.required "value" Codec.double,
  variantOf "string" <| Fields.pure string |>.required "value" Codec.string,
  variantOf "boolean" <| Fields.pure boolean |>.required "value" Codec.bool,
  variantOf "null" <| Fields.pure null,
  variantOf "parameter" <| Fields.pure parameter |>.required "position" Codec.uint32,
  binaryVariant "comparison" comparison,
  binaryVariant "logicalBinary" logicalBinary,
  binaryVariant "arithmeticBinary" arithmeticBinary,
  variantOf "not" <| Fields.pure Expression.not |>.required "value" operandCodec,
  variantOf "isNull" <| Fields.pure isNull |>.required "value" operandCodec,
  variantOf "between" <| Fields.pure between
    |>.required "value" operandCodec
    |>.required "min" operandCodec
    |>.required "max" operandCodec,
  variantOf "functionCall" <| Fields.pure functionCall
    |>.required "name" Codec.string
    |>.required "arguments" (.list operandCodec)
    |>.defaulted "distinct" Codec.bool false,
  variantOf "cast" <| Fields.pure cast
    |>.required "expression" operandCodec
    |>.required "type" Codec.string
    |>.defaulted "safe" Codec.bool false,
  variantOf "subquery" <| Fields.pure subquery |>.required "query" Codec.json]

end Expression

/-! ## Plan nodes -/

namespace PlanNode

/-- A source. -/
def sourceCodec : Codec PlanNode := .interface .planNode

/-- A kind of node, whose tag is its name. -/
def variantOf (kind : String) (fields : Fields PlanNode) : Variant .planNode :=
  .tagged kind kind (.record fields)

/-- The kinds of plan nodes. All but the projection can be told by their keys. -/
def variants : List (Variant .planNode) :=
  [(variantOf "output" <| Fields.pure output
    |>.required "id" (nameId .planNode)
    |>.required "source" sourceCodec
    |>.required "columnNames" strings
    |>.required "outputs" strings).withSignature ["id", "source", "columnNames", "outputs"],
  variantOf "project" <| Fields.pure project
    |>.required "id" (nameId .planNode)
    |>.required "source" sourceCodec
    |>.required "assignments" (.map Expression.operandCodec),
  (variantOf "filter" <| Fields.pure filter
    |>.required "id" (nameId .planNode)
    |>.required "source" sourceCodec
    |>.required "predicate" Expression.operandCodec).withSignature ["id", "source", "predicate"],
  (variantOf "tablescan" <| Fields.pure tableScan
    |>.required "id" (nameId .planNode)
    |>.required "table" (.record .tableHandle)
    |>.required "outputSymbols" strings
    |>.required "assignments" (.map (.interface .column))).withSignature
      ["id", "table", "outputSymbols", "assignments"],
  (variantOf "aggregation" <| Fields.pure aggregation
    |>.required "id" (nameId .planNode)
    |>.required "source" sourceCodec
    |>.required "aggregations" (.map Expression.operandCodec)
    |>.required "groupingKeys" strings
    |>.required "step" (named AggregationStep)).withSignature
      ["id", "source", "aggregations", "groupingKeys", "step"],
  (variantOf "limit" <| Fields.pure limit
    |>.required "id" (nameId .planNode)
    |>.required "source" sourceCodec
    |>.required "count" uint64
    |>.required "step" (named LimitStep)).withSignature ["id", "source", "count", "step"],
  (variantOf "exchange" <| Fields.pure exchange
    |>.required "id" (nameId .planNode)
    |>.required "type" (named ExchangeType)
    |>.required "scope" (named ExchangeScope)
    |>.required "partitioningScheme" (.record .partitioningScheme)
    |>.required "sources" (.list sourceCodec)).withSignature
      ["id", "partitioningScheme", "sources"],
  (variantOf "remoteSource" <| Fields.pure remoteSource
    |>.required "id" (nameId .planNode)
    |>.required "sourceFragmentIds" (.list (nameId .fragment))
    |>.required "outputs" strings
    |>.required "exchangeType" (named ExchangeType)).withSignature ["id", "sourceFragmentIds"],
  (variantOf "values" <| Fields.pure values
    |>.required "id" (nameId .planNode)
    |>.required "outputSymbols" strings
    |>.required "rows" (.list (.list Expression.operandCodec))).withSignature
      ["id", "outputSymbols", "rows"]]

end PlanNode

/-! ## All of them -/

namespace Registry

/-- Add every standard variant. -/
def registerStandard (r : Registry) : Except RegistryError Registry := do
  let r ← r.registerAll ConnectorPartitioning.variants
  let r ← r.registerAll ConnectorTransaction.variants
  let r ← r.registerAll ConnectorTable.variants
  let r ← r.registerAll ConnectorColumn.variants
  let r ← r.registerAll Expression.variants
  r.registerAll PlanNode.variants

/-- The standard variants and no others. -/
def standard : Registry :=
  match empty.registerStandard with
  | .ok r => r
  | .error _ => empty

/-- The standard variants do not get in each other's way. -/
theorem registerStandard_empty : empty.registerStandard = .ok standard := by
  rfl

end Registry

end QueryScope
