import QueryScope.Proofs.Restoring.Basic

/-!
# Handles are read again

The handles of connectors, which the keys alone have to tell apart, and the records around them.
-/

namespace QueryScope

open Codec (faithful_string faithful_double faithful_int32 faithful_uint32 faithful_uint64
  faithful_text faithful_nameId faithful_named)

variable {f : Json → Json} (hf : Json.Arrangement f) (n : Nat)
include hf

/-! ## Handles of connectors -/

theorem ConnectorPartitioning.faithful :
    (Codec.interface .partitioning).Faithful f n ConnectorPartitioning.encode := by
  refine Codec.faithful_interface (i := .partitioning) rfl hf fun a members _ w hw ha => ?_
  simp only [Interface.variants, variants, List.mem_cons, List.not_mem_nil, or_false] at hw
  rcases hw with rfl | rfl | rfl
  · obtain ⟨partitioning, hpartitioning, function, hfunction, rfl⟩ := Body.reads_record.mp ha
    refine ⟨_, Json.hasMembers_ofMembers (by simp), rfl, fun es hrw => Body.reads_record.mpr ?_⟩
    have hpartitioning := hpartitioning.restored hrw (faithful_named hf) rfl
    have hfunction := hfunction.restored hrw (faithful_named hf) rfl
    exact ⟨partitioning, hpartitioning, function, hfunction, rfl⟩
  · obtain ⟨count, hcount, function, hfunction, most, hmost, rfl⟩ := Body.reads_record.mp ha
    refine ⟨_, Json.hasMembers_ofMembers ?_, ?_, fun es hrw => Body.reads_record.mpr ?_⟩
    · cases most <;> simp [Json.optionalMember]
    · cases most <;> rfl
    · have hcount := hcount.restored hrw (faithful_uint32 hf) rfl
      have hfunction := hfunction.restored hrw (faithful_named hf) rfl
      have hmost := hmost.restored hrw (faithful_uint32 hf) (by cases most <;> rfl)
      exact ⟨count, hcount, function, hfunction, most, hmost, rfl⟩
  · obtain ⟨table, htable, rows, hrows, rfl⟩ := Body.reads_record.mp ha
    refine ⟨_, Json.hasMembers_ofMembers (by simp), rfl, fun es hrw => Body.reads_record.mpr ?_⟩
    have htable := htable.restored hrw (faithful_string hf) rfl
    have hrows := hrows.restored hrw (faithful_uint64 hf) rfl
    exact ⟨table, htable, rows, hrows, rfl⟩

theorem ConnectorTransaction.faithful :
    (Codec.interface .transaction).Faithful f n ConnectorTransaction.encode := by
  refine Codec.faithful_interface (i := .transaction) rfl hf fun a members _ w hw ha => ?_
  simp only [Interface.variants, variants, List.mem_cons, List.not_mem_nil, or_false] at hw
  rcases hw with rfl | rfl | rfl
  · obtain ⟨id, hid, rfl⟩ := Body.reads_record.mp ha
    refine ⟨_, Json.hasMembers_ofMembers (by simp), rfl, fun es hrw => Body.reads_record.mpr ?_⟩
    exact ⟨id, hid.restored hrw (faithful_text hf TransactionId.parse_text) rfl, rfl⟩
  · obtain ⟨connector, hconnector, id, hid, rfl⟩ := Body.reads_record.mp ha
    refine ⟨_, Json.hasMembers_ofMembers (by simp), rfl, fun es hrw => Body.reads_record.mpr ?_⟩
    have hconnector := hconnector.restored hrw (faithful_nameId hf) rfl
    have hid := hid.restored hrw (faithful_text hf TransactionId.parse_text) rfl
    exact ⟨connector, hconnector, id, hid, rfl⟩
  · obtain ⟨-, rfl⟩ := Body.reads_memberless.mp ha
    refine ⟨[], Json.hasMembers_object .nil, rfl, fun es hrw => Body.reads_memberless.mpr ?_⟩
    exact ⟨hrw.arranged.eq_nil, rfl⟩

theorem ConnectorTable.faithful : (Codec.interface .table).Faithful f n ConnectorTable.encode := by
  refine Codec.faithful_interface (i := .table) rfl hf fun a members _ w hw ha => ?_
  simp only [Interface.variants, variants, List.mem_cons, List.not_mem_nil, or_false] at hw
  rcases hw with rfl | rfl | rfl
  · obtain ⟨table, htable, scale, hscale, rfl⟩ := Body.reads_record.mp ha
    refine ⟨_, Json.hasMembers_ofMembers (by simp), rfl, fun es hrw => Body.reads_record.mpr ?_⟩
    have htable := htable.restored hrw (faithful_string hf) rfl
    have hscale := hscale.restored hrw (faithful_double hf) rfl
    exact ⟨table, htable, scale, hscale, rfl⟩
  · obtain ⟨schema, hschema, table, htable, rfl⟩ := Body.reads_record.mp ha
    refine ⟨_, Json.hasMembers_ofMembers (by simp), rfl, fun es hrw => Body.reads_record.mpr ?_⟩
    have hschema := hschema.restored hrw (faithful_string hf) rfl
    have htable := htable.restored hrw (faithful_string hf) rfl
    exact ⟨schema, hschema, table, htable, rfl⟩
  · obtain ⟨connector, hconnector, schema, hschema, table, htable, rfl⟩ := Body.reads_record.mp ha
    refine ⟨_, Json.hasMembers_ofMembers (by simp), rfl, fun es hrw => Body.reads_record.mpr ?_⟩
    have hconnector := hconnector.restored hrw (faithful_nameId hf) rfl
    have hschema := hschema.restored hrw (faithful_string hf) rfl
    have htable := htable.restored hrw (faithful_string hf) rfl
    exact ⟨connector, hconnector, schema, hschema, table, htable, rfl⟩

theorem ConnectorColumn.faithful :
    (Codec.interface .column).Faithful f n ConnectorColumn.encode := by
  refine Codec.faithful_interface (i := .column) rfl hf fun a members _ w hw ha => ?_
  simp only [Interface.variants, variants, List.mem_cons, List.not_mem_nil, or_false] at hw
  rcases hw with rfl | rfl | rfl
  · obtain ⟨column, hcolumn, rfl⟩ := Body.reads_record.mp ha
    refine ⟨_, Json.hasMembers_ofMembers (by simp), rfl, fun es hrw => Body.reads_record.mpr ?_⟩
    exact ⟨column, hcolumn.restored hrw (faithful_string hf) rfl, rfl⟩
  · obtain ⟨column, hcolumn, type, htype, rfl⟩ := Body.reads_record.mp ha
    refine ⟨_, Json.hasMembers_ofMembers (by simp), rfl, fun es hrw => Body.reads_record.mpr ?_⟩
    have hcolumn := hcolumn.restored hrw (faithful_string hf) rfl
    have htype := htype.restored hrw (faithful_string hf) rfl
    exact ⟨column, hcolumn, type, htype, rfl⟩
  · obtain ⟨column, hcolumn, type, htype, index, hindex, role, hrole, comment, hcomment, rfl⟩ :=
      Body.reads_record.mp ha
    refine ⟨_, Json.hasMembers_ofMembers ?_, ?_, fun es hrw => Body.reads_record.mpr ?_⟩
    · cases comment <;> simp [Json.optionalMember]
    · cases comment <;> rfl
    · have hcolumn := hcolumn.restored hrw (faithful_string hf) rfl
      have htype := htype.restored hrw (faithful_string hf) rfl
      have hindex := hindex.restored hrw (faithful_int32 hf) rfl
      have hrole := hrole.restored hrw (faithful_named hf) rfl
      have hcomment := hcomment.restored hrw (faithful_string hf) (by cases comment <;> rfl)
      exact ⟨column, hcolumn, type, htype, index, hindex, role, hrole, comment, hcomment, rfl⟩

/-! ## Records -/

theorem PartitioningHandle.faithful :
    (Codec.record .partitioningHandle).Faithful f n PartitioningHandle.encode := by
  refine Codec.faithful_record (r := .partitioningHandle) hf fun a members _ ha => ?_
  obtain ⟨connector, hconnector, transaction, htransaction, handle, hhandle, rfl⟩ :=
    Body.reads_record.mp ha
  refine ⟨_, Json.hasMembers_object ?_, fun es hrw => Body.reads_record.mpr ?_⟩
  · cases connector <;> cases transaction <;> simp [Json.optionalMember]
  · have hconnector := hconnector.restored hrw (faithful_nameId hf)
      (by cases connector <;> cases transaction <;> rfl)
    have htransaction := htransaction.restored hrw (ConnectorTransaction.faithful hf n)
      (by cases connector <;> cases transaction <;> rfl)
    have hhandle := hhandle.restored hrw (ConnectorPartitioning.faithful hf n)
      (by cases connector <;> cases transaction <;> rfl)
    exact ⟨connector, hconnector, transaction, htransaction, handle, hhandle, rfl⟩

theorem TableHandle.faithful :
    (Codec.record .tableHandle).Faithful f n TableHandle.encode := by
  refine Codec.faithful_record (r := .tableHandle) hf fun a members _ ha => ?_
  obtain ⟨connector, hconnector, handle, hhandle, transaction, htransaction, rfl⟩ :=
    Body.reads_record.mp ha
  refine ⟨_, Json.hasMembers_object (by simp), fun es hrw => Body.reads_record.mpr ?_⟩
  have hconnector := hconnector.restored hrw (faithful_nameId hf) rfl
  have hhandle := hhandle.restored hrw (ConnectorTable.faithful hf n) rfl
  have htransaction := htransaction.restored hrw (ConnectorTransaction.faithful hf n) rfl
  exact ⟨connector, hconnector, handle, hhandle, transaction, htransaction, rfl⟩

/-- A constant is kept as it stands, `null` included: the key of a column is not there. -/
theorem ArgumentBinding.faithful :
    (Codec.record .argumentBinding).Faithful f n ArgumentBinding.encode := by
  refine Codec.faithful_record (r := .argumentBinding) hf fun a members hmembers ha => ?_
  have ha := Body.reads_whenPresent.mp ha
  split at ha
  next =>
    obtain ⟨column, hcolumn, rfl⟩ := Body.reads_record.mp ha
    refine ⟨_, Json.hasMembers_object (by simp), fun es hrw => Body.reads_whenPresent.mpr ?_⟩
    rw [hrw.arranged.hasKey, if_pos (by simp [hasKey])]
    exact Body.reads_record.mpr ⟨column, hcolumn.restored hrw (faithful_string hf) rfl, rfl⟩
  next =>
    obtain ⟨value, hvalue, rfl⟩ := Body.reads_record.mp ha
    refine ⟨_, Json.hasMembers_object (by simp), fun es hrw => Body.reads_whenPresent.mpr ?_⟩
    rw [hrw.arranged.hasKey, if_neg (by simp [hasKey])]
    refine Body.reads_record.mpr ⟨value, ?_, rfl⟩
    rw [hrw.arranged]
    exact congrArg some (hf.wellFormed (hmembers _ (Json.mem_of_lookup hvalue)).1)

theorem Partitioning.faithful :
    (Codec.record .partitioning).Faithful f n Partitioning.encode := by
  refine Codec.faithful_record (r := .partitioning) hf fun a members _ ha => ?_
  obtain ⟨handle, hhandle, arguments, harguments, rfl⟩ := Body.reads_record.mp ha
  refine ⟨_, Json.hasMembers_object (by simp), fun es hrw => Body.reads_record.mpr ?_⟩
  have hhandle := hhandle.restored hrw (PartitioningHandle.faithful hf n) rfl
  have harguments := harguments.restored hrw ((ArgumentBinding.faithful hf n).list hf) rfl
  exact ⟨handle, hhandle, arguments, harguments, rfl⟩

theorem PartitioningScheme.faithful :
    (Codec.record .partitioningScheme).Faithful f n PartitioningScheme.encode := by
  refine Codec.faithful_record (r := .partitioningScheme) hf fun a members _ ha => ?_
  obtain ⟨partitioning, hpartitioning, layout, hlayout, rfl⟩ := Body.reads_record.mp ha
  refine ⟨_, Json.hasMembers_object (by simp), fun es hrw => Body.reads_record.mpr ?_⟩
  have hpartitioning := hpartitioning.restored hrw (Partitioning.faithful hf n) rfl
  have hlayout := hlayout.restored hrw (Codec.faithful_strings hf) rfl
  exact ⟨partitioning, hpartitioning, layout, hlayout, rfl⟩

end QueryScope
