import QueryScope.Wire.Standard

/-!
# Payloads

The types whose values travel as JSON, with the two directions of the way: how a value is read and
how it is written.
-/

namespace QueryScope

/-- A type whose values are payloads. -/
class Payload (α : Type) where
  /-- How a value is read. -/
  codec : Codec α
  /-- How a value is written. -/
  encode : α → Json

namespace Payload

/-- Decode a value under the registry of the engine. -/
def decode (α : Type) [Payload α] (v : Json) : Except DecodeError α :=
  (codec : Codec α).decode .standard v

/-- Decode a text under the registry of the engine. -/
def decodeText [Parser String Json] (α : Type) [Payload α] (text : String) :
    Except DecodeError α :=
  (codec : Codec α).decodeText .standard text

/-- Decode bytes under the registry of the engine. -/
def decodeBytes [Parser ByteArray Json] (α : Type) [Payload α] (bytes : ByteArray) :
    Except DecodeError α :=
  (codec : Codec α).decodeBytes .standard bytes

/-- Values that travel as texts. -/
@[reducible] def ofText {α : Type} (codec : Codec α) (text : α → String) : Payload α :=
  ⟨codec, fun a => .string (text a)⟩

end Payload

/-- Values of an enumeration travel as their names. -/
instance (priority := low) (α : Type) [Named α] : Payload α := ⟨Codec.named α, Json.ofNamed⟩

/-! ## Plain values -/

instance : Payload Json := ⟨Codec.json, id⟩

instance : Payload Bool := ⟨Codec.bool, .bool⟩

instance : Payload String := ⟨Codec.string, .string⟩

instance : Payload Double := ⟨Codec.double, .ofDouble⟩

instance : Payload Int64 := ⟨Codec.int64, .ofInt64⟩

instance : Payload Int32 := ⟨Codec.int32, .ofInt32⟩

instance : Payload UInt64 := ⟨Codec.uint64, .ofUInt64⟩

instance : Payload UInt32 := ⟨Codec.uint32, .ofUInt32⟩

/-! ## Containers -/

section

variable {α : Type} [Payload α]

instance : Payload (Option α) :=
  ⟨.nullable Payload.codec, fun a => (a.map Payload.encode).getD .null⟩

instance : Payload (List α) :=
  ⟨.list Payload.codec, fun items => .array (items.map Payload.encode)⟩

instance : Payload (List (String × α)) :=
  ⟨.map Payload.codec, fun members => .object (members.map fun (k, a) => (k, Payload.encode a))⟩

end

/-! ## Identifiers and measures -/

instance (role : NameRole) : Payload (NameId role) := .ofText (Codec.nameId role) (·.text)

instance : Payload QueryId := .ofText Codec.queryId (·.text)

instance : Payload StageId := .ofText Codec.stageId (·.text)

instance : Payload TaskId := .ofText Codec.taskId (·.text)

instance : Payload TransactionId := .ofText Codec.transactionId (·.text)

instance (υ : Type) [UnitSystem υ] : Payload (Measure υ) := .ofText Codec.measure (·.text)

/-! ## Positions of several variants -/

instance : Payload ConnectorPartitioning := ⟨.interface .partitioning, ConnectorPartitioning.encode⟩

instance : Payload ConnectorTransaction := ⟨.interface .transaction, ConnectorTransaction.encode⟩

instance : Payload ConnectorTable := ⟨.interface .table, ConnectorTable.encode⟩

instance : Payload ConnectorColumn := ⟨.interface .column, ConnectorColumn.encode⟩

instance : Payload Expression := ⟨.interface .expression, Expression.encode⟩

instance : Payload PlanNode := ⟨.interface .planNode, PlanNode.encode⟩

/-! ## Records -/

instance : Payload PartitioningHandle := ⟨.record .partitioningHandle, PartitioningHandle.encode⟩

instance : Payload Partitioning := ⟨.record .partitioning, Partitioning.encode⟩

instance : Payload PartitioningScheme := ⟨.record .partitioningScheme, PartitioningScheme.encode⟩

instance : Payload TableHandle := ⟨.record .tableHandle, TableHandle.encode⟩

instance : Payload ArgumentBinding := ⟨.record .argumentBinding, ArgumentBinding.encode⟩

instance : Payload Fragment := ⟨.record .fragment, Fragment.encode⟩

instance : Payload PageBuffer := ⟨.record .pageBuffer, PageBuffer.encode⟩

instance : Payload ConsumerBuffer := ⟨.record .consumerBuffer, ConsumerBuffer.encode⟩

instance : Payload OutputBuffer := ⟨.record .outputBuffer, OutputBuffer.encode⟩

instance : Payload TaskStatus := ⟨.record .taskStatus, TaskStatus.encode⟩

instance : Payload Task := ⟨.record .task, Task.encode⟩

instance : Payload Stage := ⟨.record .stage, Stage.encode⟩

instance : Payload QueryStats := ⟨.record .queryStats, QueryStats.encode⟩

instance : Payload Failure := ⟨.record .failure, Failure.encode⟩

instance : Payload Query := ⟨.record .query, Query.encode⟩

instance : Payload MemoryPool := ⟨.record .memoryPool, MemoryPool.encode⟩

end QueryScope
