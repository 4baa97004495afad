import QueryScope.Proofs.Location.Scalar

/-!
# What records refuse

A record that checks its fields together blames one of them, which has a value. That a count is
negative is said of a negative integer.
-/

namespace QueryScope

variable {α β : Type} {members : List (String × Json)} {e : DecodeError} {fault : FieldFault}

/-! ## The kinds of payloads -/

/-- The descriptions of the kinds of payloads. -/
inductive Codec.Standard : {α : Type} → Codec α → Prop where
  | json : Codec.json.Standard
  | bool : Codec.bool.Standard
  | string : Codec.string.Standard
  | double : Codec.double.Standard
  | int64 : Codec.int64.Standard
  | int32 : Codec.int32.Standard
  | uint64 : Codec.uint64.Standard
  | uint32 : Codec.uint32.Standard
  | nameId (role : NameRole) : (Codec.nameId role).Standard
  | queryId : Codec.queryId.Standard
  | stageId : Codec.stageId.Standard
  | taskId : Codec.taskId.Standard
  | transactionId : Codec.transactionId.Standard
  | named (α : Type) [Named α] : (Codec.named α).Standard
  | measure {υ : Type} [UnitSystem υ] : (Codec.measure : Codec (Measure υ)).Standard
  | nullable {α : Type} {c : Codec α} (h : c.Standard) : c.nullable.Standard
  | list {α : Type} {c : Codec α} (h : c.Standard) : c.list.Standard
  | map {α : Type} {c : Codec α} (h : c.Standard) : c.map.Standard
  | reservations : MemoryPool.reservationsCodec.Standard
  | record (r : Record) : (Codec.record r).Standard
  | interface (i : Interface) : (Codec.interface i).Standard

theorem Codec.Standard.strings : Codec.strings.Standard := .list .string

/-- All fields are of kinds of payloads. -/
def Fields.Standard : {α : Type} → Fields α → Prop
  | _, .pure _ => True
  | _, .required fields _ c => fields.Standard ∧ c.Standard
  | _, .optional fields _ c => fields.Standard ∧ c.Standard
  | _, .defaulted fields _ c _ => fields.Standard ∧ c.Standard
  | _, .verbatim fields _ _ => fields.Standard

/-! ## Blame -/

/-- The fault is about a field that is there, and calls it negative only when it is. -/
structure FieldFault.Blames (fault : FieldFault) (members : List (String × Json)) : Prop where
  present : ∃ v, Json.lookup members fault.field = some v
  not_missing : fault.reason ≠ .missing
  negative : ∀ k, fault.reason = .negative k → ∃ n,
    Json.lookup members fault.field = some (.number (.integer n)) ∧ n.val = k.toInt ∧ k < 0

theorem FieldFault.Blames.located (h : fault.Blames members) :
    (DecodeError.ofField .root fault).LocatedIn (.object members) where
  missing := by
    rintro ⟨field, variant, hf⟩
    cases hf
    exact absurd rfl h.not_missing
  present _ := by
    obtain ⟨v, hv⟩ := h.present
    exact ⟨v, by rw [DecodeError.ofField, Path.child, Path.root, List.nil_append, Json.follow,
      Json.step?, hv]; rfl⟩
  field _ _ hf := by
    cases hf
    rfl
  negative field k variant hf := by
    cases hf
    obtain ⟨n, hn, hval⟩ := h.negative k rfl
    exact ⟨n, by rw [DecodeError.ofField, Path.child, Path.root, List.nil_append, Json.follow,
      Json.step?, hn]; rfl, hval⟩

theorem FieldFault.Blames.of_plain {c : Codec β} {b : β} {name : String} {reason : Reason}
    (h : c.ReadsField members name b) (hr : reason.IsPlain) :
    FieldFault.Blames ⟨name, reason⟩ members := by
  obtain ⟨v, hv, -⟩ := h
  refine ⟨⟨v, (Json.present?_eq_some_iff.mp hv).1⟩, fun hm => ?_, fun k hk => ?_⟩
  · cases hm; exact hr
  · cases hk; exact hr.elim

theorem nonNegative_blames {name : String} {k : Int64}
    (h : Codec.int64.ReadsField members name k) (he : nonNegative name k = .error fault) :
    fault.Blames members := by
  rw [nonNegative] at he
  split at he
  next hk =>
    cases he
    obtain ⟨v, hv, ha⟩ := h
    have hlookup := (Json.present?_eq_some_iff.mp hv).1
    refine ⟨⟨v, hlookup⟩, by simp, fun k' hk' => ?_⟩
    cases hk'
    obtain ⟨n, rfl, hn⟩ := Codec.readInt64_eq_ok (Codec.reads_scalar.mp ha)
    exact ⟨n, hlookup, hn, hk⟩
  next => cases he

theorem nonNegative32_blames {name : String} {k : Int64}
    (h : Codec.int64.ReadsField members name k) (he : nonNegative32 name k = .error fault) :
    fault.Blames members := by
  rcases bind_eq_error_iff.mp he with he | ⟨wide, -, he⟩
  · exact nonNegative_blames h he
  · split at he <;> cases he
    exact .of_plain h trivial

theorem nonEmpty_blames {c : Codec β} {b : β} {name text : String}
    (h : c.ReadsField members name b) (he : nonEmpty name text = .error fault) :
    fault.Blames members := by
  rw [nonEmpty] at he
  split at he <;> cases he
  exact .of_plain h trivial

theorem atMost_blames {c : Codec β} {b : β} {name boundField : String} {value bound : UInt64}
    (h : c.ReadsField members name b) (he : atMost name value boundField bound = .error fault) :
    fault.Blames members := by
  rw [atMost] at he
  split at he <;> cases he
  exact .of_plain h trivial

/-- The object is described by fields of kinds of payloads, and its check blames one of them. -/
inductive Body.Standard : {α : Type} → Body α → Prop where
  /-- Fields. -/
  | record {α : Type} {fields : Fields α} (h : fields.Standard) : (Body.record fields).Standard
  /-- Fields with a check. -/
  | checked {α : Type} {fields : Fields (Except FieldFault α)} (h : fields.Standard)
      (hcheck : ∀ members fault, fields.Yields members (· = .error fault) → fault.Blames members) :
      (Body.checked fields).Standard
  /-- One of two such objects. -/
  | whenPresent {α : Type} {key : String} {present absent : Body α} (hp : present.Standard)
      (ha : absent.Standard) : (Body.whenPresent key present absent).Standard
  /-- The empty object. -/
  | memberless {α : Type} (interface : String) (a : α) : (Body.memberless interface a).Standard

/-! ## Records -/

theorem PageBuffer.body_standard : PageBuffer.body.Standard := by
  refine .checked ⟨⟨⟨⟨⟨trivial, .int64⟩, .int64⟩, .int64⟩, .int64⟩, .int64⟩ fun ms fault h => ?_
  obtain ⟨partition, hpartition, pages, hpages, bytes, hbytes, rows, hrows, added, hadded,
    hmake⟩ := h
  simp only [make, bind_eq_error_iff] at hmake
  rcases hmake with h | ⟨_, -, h | ⟨_, -, h | ⟨_, -, h | ⟨_, -, h | ⟨_, -, h⟩⟩⟩⟩⟩
  · exact nonNegative32_blames hpartition h
  · exact nonNegative_blames hpages h
  · exact nonNegative_blames hbytes h
  · exact nonNegative_blames hrows h
  · exact nonNegative_blames hadded h
  · cases h

theorem ConsumerBuffer.body_standard : ConsumerBuffer.body.Standard := by
  refine .checked ⟨⟨⟨⟨⟨trivial, .nameId _⟩, .bool⟩, .int64⟩, .int64⟩, .record _⟩
    fun ms fault h => ?_
  obtain ⟨id, hid, finished, hfinished, pages, hpages, sent, hsent, page, hpage, hmake⟩ := h
  simp only [make, bind_eq_error_iff] at hmake
  rcases hmake with h | ⟨_, -, h | ⟨_, -, h⟩⟩
  · exact nonNegative_blames hpages h
  · exact nonNegative_blames hsent h
  · cases h

theorem OutputBuffer.body_standard : OutputBuffer.body.Standard := by
  refine .checked ⟨⟨⟨⟨⟨⟨⟨⟨⟨trivial, .named _⟩, .named _⟩, .bool⟩, .bool⟩, .int64⟩, .int64⟩, .int64⟩,
    .int64⟩, .list (.record _)⟩ fun ms fault h => ?_
  obtain ⟨type, htype, state, hstate, canAddBuffers, hcanAddBuffers, canAddPages, hcanAddPages,
    bytes, hbytes, pages, hpages, rows, hrows, sent, hsent, buffers, hbuffers, hmake⟩ := h
  simp only [make, bind_eq_error_iff] at hmake
  rcases hmake with h | ⟨_, -, h | ⟨_, -, h | ⟨_, -, h | ⟨_, -, h⟩⟩⟩⟩
  · exact nonNegative_blames hbytes h
  · exact nonNegative_blames hpages h
  · exact nonNegative_blames hrows h
  · exact nonNegative_blames hsent h
  · cases h

theorem TaskStatus.body_standard : TaskStatus.body.Standard := by
  refine .checked ⟨⟨⟨⟨⟨⟨⟨trivial, .taskId⟩, .int64⟩, .named _⟩, .string⟩, .int64⟩, .int64⟩, .int64⟩
    fun ms fault h => ?_
  obtain ⟨id, hid, version, hversion, state, hstate, self, hself, queued, hqueued,
    running, hrunning, memory, hmemory, hmake⟩ := h
  simp only [make, bind_eq_error_iff] at hmake
  rcases hmake with h | ⟨_, -, h | ⟨_, -, h | ⟨_, -, h | ⟨_, -, h | ⟨_, -, h⟩⟩⟩⟩⟩
  · exact nonNegative_blames hversion h
  · exact nonEmpty_blames hself h
  · exact nonNegative32_blames hqueued h
  · exact nonNegative32_blames hrunning h
  · exact nonNegative_blames hmemory h
  · cases h

theorem Task.body_standard : Task.body.Standard := by
  refine .checked ⟨⟨⟨⟨⟨trivial, .record _⟩, .string⟩, .record _⟩, .list (.nameId _)⟩, .bool⟩
    fun ms fault h => ?_
  obtain ⟨status, hstatus, heartbeat, hheartbeat, output, houtput, splits, hsplits, needs, hneeds,
    hmake⟩ := h
  simp only [make, bind_eq_error_iff] at hmake
  rcases hmake with h | ⟨_, -, h⟩
  · exact nonEmpty_blames hheartbeat h
  · cases h

theorem Stage.body_standard : Stage.body.Standard := by
  refine .checked ⟨⟨⟨⟨⟨trivial, .stageId⟩, .named _⟩, .record _⟩, .list (.record _)⟩,
    .list (.record _)⟩ fun ms fault h => ?_
  obtain ⟨id, hid, state, hstate, plan, hplan, tasks, htasks, subStages, hsubStages, hmake⟩ := h
  rw [make] at hmake
  split at hmake <;> cases hmake
  exact .of_plain htasks trivial

theorem QueryStats.body_standard : QueryStats.body.Standard := by
  refine .checked ⟨⟨⟨⟨⟨⟨⟨⟨⟨⟨⟨⟨trivial, .string⟩, .measure⟩, .int64⟩, .int64⟩, .int64⟩, .int64⟩,
    .int64⟩, .int64⟩, .int64⟩, .measure⟩, .int64⟩, .measure⟩ fun ms fault h => ?_
  obtain ⟨create, hcreate, elapsed, helapsed, tasks, htasks, runningTasks, hrunningTasks,
    completedTasks, hcompletedTasks, drivers, hdrivers, queued, hqueued, running, hrunning,
    completed, hcompleted, size, hsize, positions, hpositions, peak, hpeak, hmake⟩ := h
  simp only [make, bind_eq_error_iff] at hmake
  rcases hmake with h | ⟨_, -, h | ⟨_, -, h | ⟨_, -, h | ⟨_, -, h | ⟨_, -, h | ⟨_, -, h | ⟨_, -, h |
    ⟨_, -, h | ⟨_, -, h | ⟨_, -, h | ⟨_, -, h⟩⟩⟩⟩⟩⟩⟩⟩⟩⟩⟩
  · exact nonEmpty_blames hcreate h
  · exact nonNegative32_blames htasks h
  · exact nonNegative32_blames hrunningTasks h
  · exact nonNegative32_blames hcompletedTasks h
  · exact nonNegative32_blames hdrivers h
  · exact nonNegative32_blames hqueued h
  · exact nonNegative32_blames hrunning h
  · exact nonNegative32_blames hcompleted h
  · exact nonNegative_blames hpositions h
  · exact atMost_blames hcompletedTasks h
  · exact atMost_blames hcompleted h
  · cases h

theorem Failure.body_standard : Failure.body.Standard := by
  refine .checked ⟨⟨⟨⟨trivial, .string⟩, .string⟩, .record _⟩, .strings⟩ fun ms fault h => ?_
  obtain ⟨type, htype, message, hmessage, cause, hcause, stack, hstack, hmake⟩ := h
  simp only [make, bind_eq_error_iff] at hmake
  rcases hmake with h | ⟨_, -, h⟩
  · exact nonEmpty_blames htype h
  · cases h

theorem Query.body_standard : Query.body.Standard := by
  refine .checked ⟨⟨⟨⟨⟨⟨⟨⟨⟨⟨trivial, .queryId⟩, .named _⟩, .nameId _⟩, .bool⟩, .string⟩, .string⟩,
    .record _⟩, .transactionId⟩, .record _⟩, .record _⟩ fun ms fault h => ?_
  obtain ⟨id, hid, state, hstate, pool, hpool, scheduled, hscheduled, self, hself, query, hquery,
    stats, hstats, transaction, htransaction, stage, hstage, failure, hfailure, hmake⟩ := h
  -- whatever the output stage, the address is checked last
  have hself (h : (nonEmpty "self" self >>= fun self => pure (Query.mk id state pool scheduled self
      query stats transaction stage failure)) = .error fault) : fault.Blames ms := by
    rcases bind_eq_error_iff.mp h with h | ⟨_, -, h⟩
    · exact nonEmpty_blames hself h
    · cases h
  rcases hstage with ⟨-, rfl⟩ | ⟨s, hs, rfl⟩
  · exact hself hmake
  · simp only [make] at hmake
    split at hmake
    · cases hmake
      exact .of_plain hs trivial
    · exact hself hmake

theorem MemoryPool.body_standard : MemoryPool.body.Standard := by
  refine .checked ⟨⟨⟨⟨⟨trivial, .int64⟩, .int64⟩, .int64⟩, .reservations⟩, .reservations⟩
    fun ms fault h => ?_
  obtain ⟨most, hmost, reserved, hreserved, revocable, hrevocable, o, ho, o', ho', hmake⟩ := h
  simp only [make, bind_eq_error_iff] at hmake
  rcases hmake with h | ⟨_, -, h | ⟨_, -, h | ⟨_, -, h⟩⟩⟩
  · exact nonNegative_blames hmost h
  · exact nonNegative_blames hreserved h
  · exact nonNegative_blames hrevocable h
  · cases h

theorem ArgumentBinding.body_standard : ArgumentBinding.body.Standard :=
  .whenPresent (.record ⟨trivial, .string⟩) (.record trivial)

theorem Record.body_standard (r : Record) : r.body.Standard := by
  cases r with
  | pageBuffer => exact PageBuffer.body_standard
  | consumerBuffer => exact ConsumerBuffer.body_standard
  | outputBuffer => exact OutputBuffer.body_standard
  | taskStatus => exact TaskStatus.body_standard
  | task => exact Task.body_standard
  | stage => exact Stage.body_standard
  | queryStats => exact QueryStats.body_standard
  | failure => exact Failure.body_standard
  | query => exact Query.body_standard
  | memoryPool => exact MemoryPool.body_standard
  | fragment =>
    exact .record ⟨⟨⟨⟨trivial, .nameId _⟩, .interface _⟩, .record _⟩, .record _⟩
  | partitioningHandle => exact .record ⟨⟨⟨trivial, .nameId _⟩, .interface _⟩, .interface _⟩
  | partitioning => exact .record ⟨⟨trivial, .record _⟩, .list (.record _)⟩
  | partitioningScheme => exact .record ⟨⟨trivial, .record _⟩, .strings⟩
  | tableHandle => exact .record ⟨⟨⟨trivial, .nameId _⟩, .interface _⟩, .interface _⟩
  | argumentBinding => exact ArgumentBinding.body_standard

/-! ## Variants -/

theorem Interface.variants_standard (i : Interface) : ∀ v ∈ i.variants, v.body.Standard := by
  cases i with
  | partitioning =>
    simp only [variants, ConnectorPartitioning.variants, List.forall_mem_cons]
    exact ⟨.record ⟨⟨trivial, .named _⟩, .named _⟩,
      .record ⟨⟨⟨trivial, .uint32⟩, .named _⟩, .uint32⟩, .record ⟨⟨trivial, .string⟩, .uint64⟩,
      by simp⟩
  | transaction =>
    simp only [variants, ConnectorTransaction.variants, List.forall_mem_cons]
    exact ⟨.record ⟨trivial, .transactionId⟩,
      .record ⟨⟨trivial, .nameId _⟩, .transactionId⟩, .memberless _ _, by simp⟩
  | table =>
    simp only [variants, ConnectorTable.variants, List.forall_mem_cons]
    exact ⟨.record ⟨⟨trivial, .string⟩, .double⟩, .record ⟨⟨trivial, .string⟩, .string⟩,
      .record ⟨⟨⟨trivial, .nameId _⟩, .string⟩, .string⟩, by simp⟩
  | column =>
    simp only [variants, ConnectorColumn.variants, List.forall_mem_cons]
    exact ⟨.record ⟨trivial, .string⟩, .record ⟨⟨trivial, .string⟩, .string⟩,
      .record ⟨⟨⟨⟨⟨trivial, .string⟩, .string⟩, .int32⟩, .named _⟩, .string⟩, by simp⟩
  | expression =>
    have hbinary {ω : Type} [Named ω] (kind : String)
        (build : ω → Expression → Expression → Expression) :
        (Expression.binaryVariant kind build).body.Standard :=
      .record ⟨⟨⟨trivial, .named _⟩, .interface _⟩, .interface _⟩
    simp only [variants, Expression.variants, List.forall_mem_cons]
    exact ⟨.record ⟨trivial, .string⟩, .record ⟨trivial, .string⟩, .record ⟨trivial, .int64⟩,
      .record ⟨trivial, .double⟩, .record ⟨trivial, .string⟩, .record ⟨trivial, .bool⟩,
      .record trivial, .record ⟨trivial, .uint32⟩, hbinary _ _, hbinary _ _, hbinary _ _,
      .record ⟨trivial, .interface _⟩, .record ⟨trivial, .interface _⟩,
      .record ⟨⟨⟨trivial, .interface _⟩, .interface _⟩, .interface _⟩,
      .record ⟨⟨⟨trivial, .string⟩, .list (.interface _)⟩, .bool⟩,
      .record ⟨⟨⟨trivial, .interface _⟩, .string⟩, .bool⟩, .record ⟨trivial, .json⟩, by simp⟩
  | planNode =>
    simp only [variants, PlanNode.variants, List.forall_mem_cons]
    exact ⟨.record ⟨⟨⟨⟨trivial, .nameId _⟩, .interface _⟩, .strings⟩, .strings⟩,
      .record ⟨⟨⟨trivial, .nameId _⟩, .interface _⟩, .map (.interface _)⟩,
      .record ⟨⟨⟨trivial, .nameId _⟩, .interface _⟩, .interface _⟩,
      .record ⟨⟨⟨⟨trivial, .nameId _⟩, .record _⟩, .strings⟩, .map (.interface _)⟩,
      .record ⟨⟨⟨⟨⟨trivial, .nameId _⟩, .interface _⟩, .map (.interface _)⟩, .strings⟩, .named _⟩,
      .record ⟨⟨⟨⟨trivial, .nameId _⟩, .interface _⟩, .uint64⟩, .named _⟩,
      .record ⟨⟨⟨⟨⟨trivial, .nameId _⟩, .named _⟩, .named _⟩, .record _⟩, .list (.interface _)⟩,
      .record ⟨⟨⟨⟨trivial, .nameId _⟩, .list (.nameId _)⟩, .strings⟩, .named _⟩,
      .record ⟨⟨⟨trivial, .nameId _⟩, .strings⟩, .list (.list (.interface _))⟩, by simp⟩
  | custom name tagKey => exact fun v hv => by cases hv

end QueryScope
