import QueryScope.Proofs.Restoring.Snapshot

/-!
# Payloads are decoded again

Every payload without sizes and durations that decoding gives is given again by decoding its JSON.
A size or duration is left out here because its text rounds the magnitude to two decimals.
-/

namespace QueryScope

/-- The kinds of payloads in which no size and no duration stands. -/
inductive Payload.MeasureFree : (α : Type) → [Payload α] → Prop where
  | expression : MeasureFree Expression
  | planNode : MeasureFree PlanNode
  | fragment : MeasureFree Fragment
  | stage : MeasureFree Stage
  | task : MeasureFree Task
  | taskStatus : MeasureFree TaskStatus
  | outputBuffer : MeasureFree OutputBuffer
  | consumerBuffer : MeasureFree ConsumerBuffer
  | pageBuffer : MeasureFree PageBuffer
  | memoryPool : MeasureFree MemoryPool
  | failure : MeasureFree Failure
  | partitioningHandle : MeasureFree PartitioningHandle
  | partitioning : MeasureFree Partitioning
  | partitioningScheme : MeasureFree PartitioningScheme
  | tableHandle : MeasureFree TableHandle
  | argumentBinding : MeasureFree ArgumentBinding
  | connectorPartitioning : MeasureFree ConnectorPartitioning
  | connectorTransaction : MeasureFree ConnectorTransaction
  | connectorTable : MeasureFree ConnectorTable
  | connectorColumn : MeasureFree ConnectorColumn
  | json : MeasureFree Json
  | bool : MeasureFree Bool
  | string : MeasureFree String
  | double : MeasureFree Double
  | int64 : MeasureFree Int64
  | int32 : MeasureFree Int32
  | uint64 : MeasureFree UInt64
  | uint32 : MeasureFree UInt32
  | named {α : Type} [Named α] [Named.Lawful α] : MeasureFree α
  | nameId {role : NameRole} : MeasureFree (NameId role)
  | queryId : MeasureFree QueryId
  | stageId : MeasureFree StageId
  | taskId : MeasureFree TaskId
  | transactionId : MeasureFree TransactionId
  | option {α : Type} [Payload α] (h : MeasureFree α) : MeasureFree (Option α)
  | list {α : Type} [Payload α] (h : MeasureFree α) : MeasureFree (List α)
  | map {α : Type} [Payload α] (h : MeasureFree α) : MeasureFree (List (String × α))

theorem Payload.MeasureFree.faithful {α : Type} [Payload α] (h : MeasureFree α) {f : Json → Json}
    (hf : Json.Arrangement f) (n : Nat) :
    (Payload.codec : Codec α).Faithful f n Payload.encode := by
  induction h with
  | expression => exact Expression.faithful hf n
  | planNode => exact PlanNode.faithful hf n
  | fragment => exact Fragment.faithful hf n
  | stage => exact Stage.faithful hf n
  | task => exact Task.faithful hf n
  | taskStatus => exact TaskStatus.faithful hf n
  | outputBuffer => exact OutputBuffer.faithful hf n
  | consumerBuffer => exact ConsumerBuffer.faithful hf n
  | pageBuffer => exact PageBuffer.faithful hf n
  | memoryPool => exact MemoryPool.faithful hf n
  | failure => exact Failure.faithful hf n
  | partitioningHandle => exact PartitioningHandle.faithful hf n
  | partitioning => exact Partitioning.faithful hf n
  | partitioningScheme => exact PartitioningScheme.faithful hf n
  | tableHandle => exact TableHandle.faithful hf n
  | argumentBinding => exact ArgumentBinding.faithful hf n
  | connectorPartitioning => exact ConnectorPartitioning.faithful hf n
  | connectorTransaction => exact ConnectorTransaction.faithful hf n
  | connectorTable => exact ConnectorTable.faithful hf n
  | connectorColumn => exact ConnectorColumn.faithful hf n
  | json => exact Codec.faithful_json hf
  | bool => exact Codec.faithful_bool hf
  | string => exact Codec.faithful_string hf
  | double => exact Codec.faithful_double hf
  | int64 => exact Codec.faithful_int64 hf
  | int32 => exact Codec.faithful_int32 hf
  | uint64 => exact Codec.faithful_uint64 hf
  | uint32 => exact Codec.faithful_uint32 hf
  | named => exact Codec.faithful_named hf
  | nameId => exact Codec.faithful_nameId hf
  | queryId => exact Codec.faithful_text hf QueryId.parse_text
  | stageId => exact Codec.faithful_text hf StageId.parse_text
  | taskId => exact Codec.faithful_text hf TaskId.parse_text
  | transactionId => exact Codec.faithful_text hf TransactionId.parse_text
  | option _ ih => exact ih.nullable hf
  | list _ ih => exact ih.list hf
  | map _ ih => exact ih.map hf

/-- What decoding gives is given again by decoding its JSON, whether the members of objects stand in
the order of writing or ascend. -/
theorem Payload.decode_encode {α : Type} [Payload α] (h : MeasureFree α) {P : Json}
    (hP : P.WellFormed) {a : α} (ha : Payload.decode α P = .ok a) :
    Payload.decode α (Payload.encode a) = .ok a ∧
      Payload.decode α (Payload.encode a).sorted = .ok a := by
  have hn : sizeOf P < sizeOf P + 1 := Nat.lt_succ_self _
  have hwritten := (h.faithful .id (sizeOf P + 1) a P hP hn ha).1
  have hsorted := (h.faithful .sorted (sizeOf P + 1) a P hP hn ha).1
  exact ⟨hwritten, hsorted⟩

/-- A partitioning into buckets by a column and by the constant `null`. -/
def PartitioningScheme.sample : PartitioningScheme :=
  ⟨⟨⟨none, some .remote, .hive 4 .hiveCompatible none⟩, [.column "x", .constant .null]⟩, ["x"]⟩

/-- The JSON of the sample as it is read from text. -/
def PartitioningScheme.samplePayload : Json :=
  .object [("outputLayout", .array [.string "x"]),
    ("partitioning", .object [
      ("arguments", .array [.object [("column", .string "x")], .object [("constant", .null)]]),
      ("handle", .object [
        ("connectorHandle", .object [("bucketCount", .ofUInt32 4),
          ("bucketFunctionType", .string "HIVE_COMPATIBLE")]),
        ("connectorId", .null), ("transactionHandle", .object [])])])]

theorem PartitioningScheme.decode_samplePayload :
    Payload.decode PartitioningScheme samplePayload = .ok sample := by
  have hconnector : (Codec.interface .partitioning).Reads
      (.object [("bucketCount", .ofUInt32 4), ("bucketFunctionType", .string "HIVE_COMPATIBLE")])
      (.hive 4 .hiveCompatible none) :=
    Codec.reads_interface.mpr ⟨_, _, rfl, rfl, rfl, Body.reads_record.mpr
      ⟨_, ⟨_, rfl, rfl⟩, _, ⟨_, rfl, rfl⟩, none, Or.inl ⟨rfl, rfl⟩, rfl⟩⟩
  have htransaction : (Codec.interface .transaction).Reads (.object []) .remote :=
    Codec.reads_interface.mpr ⟨_, _, rfl, rfl, rfl, Body.reads_memberless.mpr ⟨rfl, rfl⟩⟩
  have hcolumn : (Codec.record .argumentBinding).Reads (.object [("column", .string "x")])
      (.column "x") :=
    Codec.reads_record.mpr ⟨_, rfl, Body.reads_whenPresent.mpr
      (Body.reads_record.mpr ⟨_, ⟨_, rfl, rfl⟩, rfl⟩)⟩
  have hconstant : (Codec.record .argumentBinding).Reads (.object [("constant", .null)])
      (.constant .null) :=
    Codec.reads_record.mpr ⟨_, rfl, Body.reads_whenPresent.mpr
      (Body.reads_record.mpr ⟨_, rfl, rfl⟩)⟩
  refine Codec.reads_record.mpr
    ⟨_, rfl, Body.reads_record.mpr ⟨_, ⟨_, rfl, ?_⟩, _, ⟨_, rfl, ?_⟩, rfl⟩⟩
  · refine Codec.reads_record.mpr
      ⟨_, rfl, Body.reads_record.mpr ⟨_, ⟨_, rfl, ?_⟩, _, ⟨_, rfl, ?_⟩, rfl⟩⟩
    · exact Codec.reads_record.mpr ⟨_, rfl, Body.reads_record.mpr ⟨none, Or.inl ⟨rfl, rfl⟩,
        _, Or.inr ⟨_, ⟨_, rfl, htransaction⟩, rfl⟩, _, ⟨_, rfl, hconnector⟩, rfl⟩⟩
    · exact Codec.reads_list.mpr ⟨_, rfl, .cons hcolumn (.cons hconstant .nil)⟩
  · exact Codec.reads_list.mpr ⟨_, rfl, .cons rfl .nil⟩

theorem Payload.decode_encode_scheme : Payload.MeasureFree PartitioningScheme ∧
    PartitioningScheme.samplePayload.WellFormed ∧
      Payload.decode PartitioningScheme PartitioningScheme.samplePayload = .ok .sample ∧
        Payload.decode PartitioningScheme (Payload.encode PartitioningScheme.sample) = .ok .sample ∧
          Payload.decode PartitioningScheme (Payload.encode PartitioningScheme.sample).sorted =
            .ok .sample :=
  ⟨.partitioningScheme, by decide, PartitioningScheme.decode_samplePayload,
    Payload.decode_encode .partitioningScheme (by decide) PartitioningScheme.decode_samplePayload⟩

end QueryScope
