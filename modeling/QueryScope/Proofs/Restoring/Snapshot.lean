import QueryScope.Proofs.Restoring.Plan

/-!
# Snapshots are read again

A counter is written as the count that it was narrowed to, which is the same number. The checks that
a snapshot passed when it was read are about what is written, so that they are passed again.
-/

namespace QueryScope

open Codec (faithful_bool faithful_string faithful_strings faithful_uint64 faithful_text
  faithful_nameId faithful_named)

variable {f : Json → Json} (hf : Json.Arrangement f) (n : Nat)

/-! ## Counters -/

section Counter

variable {n : Nat} {members own es : List (String × Json)} {name field : String} {m : Int64}

theorem Codec.ReadsField.restored_count {k : UInt64} (h : Codec.int64.ReadsField members name m)
    (hrw : Json.Rewritten f n members own es) (hk : nonNegative field m = .ok k)
    (hl : Json.lookup own name = some (.ofUInt64 k)) : Codec.int64.ReadsField es name m := by
  rw [Json.ofUInt64_eq_ofInt64 (nonNegative_eq_ok hk)] at hl
  exact h.restored hrw (faithful_int64 hrw.arrangement) hl

theorem Codec.ReadsField.restored_count32 {k : UInt32} (h : Codec.int64.ReadsField members name m)
    (hrw : Json.Rewritten f n members own es) (hk : nonNegative32 field m = .ok k)
    (hl : Json.lookup own name = some (.ofUInt32 k)) : Codec.int64.ReadsField es name m := by
  rw [Json.ofUInt32_eq_ofInt64 (nonNegative32_eq_ok hk)] at hl
  exact h.restored hrw (faithful_int64 hrw.arrangement) hl

theorem nonEmpty_eq_ok {text result : String} (h : nonEmpty field text = .ok result) :
    result = text := by
  rw [nonEmpty] at h
  split at h
  · cases h
  · exact (Except.ok.inj h).symm

end Counter

/-! ## Buffers -/

theorem PageBuffer.make_eq_ok {partition pages bytes rows added : Int64} {b : PageBuffer}
    (h : make partition pages bytes rows added = .ok b) :
    nonNegative32 "partition" partition = .ok b.partition ∧
      nonNegative "bufferedPages" pages = .ok b.bufferedPages ∧
      nonNegative "bufferedBytes" bytes = .ok b.bufferedBytes ∧
      nonNegative "rowsAdded" rows = .ok b.rowsAdded ∧
      nonNegative "pagesAdded" added = .ok b.pagesAdded := by
  simp only [make, bind_eq_ok_iff] at h
  obtain ⟨_, hpartition, _, hpages, _, hbytes, _, hrows, _, hadded, heq⟩ := h
  cases heq
  exact ⟨hpartition, hpages, hbytes, hrows, hadded⟩

include hf

theorem PageBuffer.faithful : (Codec.record .pageBuffer).Faithful f n PageBuffer.encode := by
  refine Codec.faithful_record (r := .pageBuffer) hf fun a members _ ha => ?_
  obtain ⟨partition, hpartition, pages, hpages, bytes, hbytes, rows, hrows, added, hadded, hmake⟩ :=
    Body.reads_checked.mp ha
  obtain ⟨hp, hpg, hb, hr, had⟩ := PageBuffer.make_eq_ok hmake
  refine ⟨_, Json.hasMembers_object (by simp), fun es hrw => Body.reads_checked.mpr ?_⟩
  have hpartition := hpartition.restored_count32 hrw hp rfl
  have hpages := hpages.restored_count hrw hpg rfl
  have hbytes := hbytes.restored_count hrw hb rfl
  have hrows := hrows.restored_count hrw hr rfl
  have hadded := hadded.restored_count hrw had rfl
  exact ⟨partition, hpartition, pages, hpages, bytes, hbytes, rows, hrows, added, hadded, hmake⟩

omit hf in
theorem ConsumerBuffer.make_eq_ok {id : OutputBufferId} {finished : Bool} {pages sent : Int64}
    {page : PageBuffer} {b : ConsumerBuffer} (h : make id finished pages sent page = .ok b) :
    (id = b.id ∧ finished = b.finished ∧ page = b.page) ∧
      nonNegative "bufferedPages" pages = .ok b.bufferedPages ∧
      nonNegative "pagesSent" sent = .ok b.pagesSent := by
  simp only [make, bind_eq_ok_iff] at h
  obtain ⟨_, hpages, _, hsent, heq⟩ := h
  cases heq
  exact ⟨⟨rfl, rfl, rfl⟩, hpages, hsent⟩

theorem ConsumerBuffer.faithful :
    (Codec.record .consumerBuffer).Faithful f n ConsumerBuffer.encode := by
  refine Codec.faithful_record (r := .consumerBuffer) hf fun a members _ ha => ?_
  obtain ⟨id, hid, finished, hfinished, pages, hpages, sent, hsent, page, hpage, hmake⟩ :=
    Body.reads_checked.mp ha
  obtain ⟨⟨rfl, rfl, rfl⟩, hp, hs⟩ := ConsumerBuffer.make_eq_ok hmake
  refine ⟨_, Json.hasMembers_object (by simp), fun es hrw => Body.reads_checked.mpr ?_⟩
  have hid := hid.restored hrw (faithful_nameId hf) rfl
  have hfinished := hfinished.restored hrw (faithful_bool hf) rfl
  have hpages := hpages.restored_count hrw hp rfl
  have hsent := hsent.restored_count hrw hs rfl
  have hpage := hpage.restored hrw (PageBuffer.faithful hf n) rfl
  exact ⟨_, hid, _, hfinished, pages, hpages, sent, hsent, _, hpage, hmake⟩

omit hf in
theorem OutputBuffer.make_eq_ok {type : BufferType} {state : BufferState}
    {canAddBuffers canAddPages : Bool} {bytes pages rows sent : Int64}
    {buffers : List ConsumerBuffer} {b : OutputBuffer}
    (h : make type state canAddBuffers canAddPages bytes pages rows sent buffers = .ok b) :
    (type = b.type ∧ state = b.state ∧ canAddBuffers = b.canAddBuffers ∧
        canAddPages = b.canAddPages ∧ buffers = b.buffers) ∧
      nonNegative "totalBufferedBytes" bytes = .ok b.totalBufferedBytes ∧
      nonNegative "totalBufferedPages" pages = .ok b.totalBufferedPages ∧
      nonNegative "totalRowsSent" rows = .ok b.totalRowsSent ∧
      nonNegative "totalPagesSent" sent = .ok b.totalPagesSent := by
  simp only [make, bind_eq_ok_iff] at h
  obtain ⟨_, hbytes, _, hpages, _, hrows, _, hsent, heq⟩ := h
  cases heq
  exact ⟨⟨rfl, rfl, rfl, rfl, rfl⟩, hbytes, hpages, hrows, hsent⟩

theorem OutputBuffer.faithful : (Codec.record .outputBuffer).Faithful f n OutputBuffer.encode := by
  refine Codec.faithful_record (r := .outputBuffer) hf fun a members _ ha => ?_
  obtain ⟨type, htype, state, hstate, canAddBuffers, hcanAddBuffers, canAddPages, hcanAddPages,
    bytes, hbytes, pages, hpages, rows, hrows, sent, hsent, buffers, hbuffers, hmake⟩ :=
    Body.reads_checked.mp ha
  obtain ⟨⟨rfl, rfl, rfl, rfl, rfl⟩, hb, hp, hr, hs⟩ := OutputBuffer.make_eq_ok hmake
  refine ⟨_, Json.hasMembers_object (by simp), fun es hrw => Body.reads_checked.mpr ?_⟩
  have htype := htype.restored hrw (faithful_named hf) rfl
  have hstate := hstate.restored hrw (faithful_named hf) rfl
  have hcanAddBuffers := hcanAddBuffers.restored hrw (faithful_bool hf) rfl
  have hcanAddPages := hcanAddPages.restored hrw (faithful_bool hf) rfl
  have hbytes := hbytes.restored_count hrw hb rfl
  have hpages := hpages.restored_count hrw hp rfl
  have hrows := hrows.restored_count hrw hr rfl
  have hsent := hsent.restored_count hrw hs rfl
  have hbuffers := hbuffers.restored hrw ((ConsumerBuffer.faithful hf n).list hf) rfl
  exact ⟨_, htype, _, hstate, _, hcanAddBuffers, _, hcanAddPages, bytes, hbytes, pages, hpages,
    rows, hrows, sent, hsent, _, hbuffers, hmake⟩

/-! ## Memory pools -/

omit hf in
theorem MemoryPool.make_eq_ok {most reserved revocable : Int64}
    {reservations revocableReservations : List (QueryId × UInt64)} {p : MemoryPool}
    (h : make most reserved revocable reservations revocableReservations = .ok p) :
    (reservations = p.reservations ∧ revocableReservations = p.revocableReservations) ∧
      nonNegative "maxBytes" most = .ok p.maxBytes ∧
      nonNegative "reservedBytes" reserved = .ok p.reservedBytes ∧
      nonNegative "reservedRevocableBytes" revocable = .ok p.reservedRevocableBytes := by
  simp only [make, bind_eq_ok_iff] at h
  obtain ⟨_, hmost, _, hreserved, _, hrevocable, heq⟩ := h
  cases heq
  exact ⟨⟨rfl, rfl⟩, hmost, hreserved, hrevocable⟩

theorem MemoryPool.faithful_reservations :
    reservationsCodec.Faithful f n encodeReservations := by
  refine (faithful_uint64 hf).keyed hf fun name id h => ?_
  rw [mapError_eq_ok_iff, QueryId.parse] at h
  split at h
  · cases h; rfl
  · cases h

/-- Reservations that were left out are written as no reservations. -/
theorem MemoryPool.reads_reservations {members own es : List (String × Json)} {name : String}
    {o : Option (List (QueryId × UInt64))} (h : reservationsCodec.ReadsOptional members name o)
    (hrw : Json.Rewritten f n members own es)
    (hl : Json.lookup own name = some (encodeReservations (o.getD []))) :
    reservationsCodec.ReadsOptional es name (some (o.getD [])) := by
  refine Or.inr ⟨o.getD [], ?_, rfl⟩
  rcases h with ⟨-, rfl⟩ | ⟨b, hb, rfl⟩
  · refine .of_lookup hf hrw.arranged hl rfl ?_
    have hnone : f (.object []) = .object [] := hf.wellFormed (.object .nil (by simp))
    exact Codec.reads_keyed.mpr ⟨[], hnone, .nil⟩
  · exact hb.restored hrw (faithful_reservations hf n) hl

theorem MemoryPool.faithful : (Codec.record .memoryPool).Faithful f n MemoryPool.encode := by
  refine Codec.faithful_record (r := .memoryPool) hf fun a members _ ha => ?_
  obtain ⟨most, hmost, reserved, hreserved, revocable, hrevocable, o, ho, o', ho', hmake⟩ :=
    Body.reads_checked.mp ha
  obtain ⟨⟨hreservations, hrevocables⟩, hm, hr, hrv⟩ := MemoryPool.make_eq_ok hmake
  refine ⟨_, Json.hasMembers_object (by simp), fun es hrw => Body.reads_checked.mpr ?_⟩
  have hmost := hmost.restored_count hrw hm rfl
  have hreserved := hreserved.restored_count hrw hr rfl
  have hrevocable := hrevocable.restored_count hrw hrv rfl
  have ho := reads_reservations hf n ho hrw (by rw [hreservations]; rfl)
  have ho' := reads_reservations hf n ho' hrw (by rw [hrevocables]; rfl)
  exact ⟨most, hmost, reserved, hreserved, revocable, hrevocable, _, ho, _, ho', hmake⟩

/-! ## Tasks -/

omit hf in
theorem TaskStatus.make_eq_ok {id : TaskId} {version : Int64} {state : TaskState} {self : String}
    {queued running memory : Int64} {s : TaskStatus}
    (h : make id version state self queued running memory = .ok s) :
    (id = s.id ∧ state = s.state ∧ self = s.self) ∧ nonNegative "version" version = .ok s.version ∧
      nonNegative32 "queuedPartitionedDrivers" queued = .ok s.queuedDrivers ∧
      nonNegative32 "runningPartitionedDrivers" running = .ok s.runningDrivers ∧
      nonNegative "memoryReservationInBytes" memory = .ok s.memoryReservation := by
  simp only [make, bind_eq_ok_iff] at h
  obtain ⟨_, hversion, _, hself, _, hqueued, _, hrunning, _, hmemory, heq⟩ := h
  obtain rfl := nonEmpty_eq_ok hself
  cases heq
  exact ⟨⟨rfl, rfl, rfl⟩, hversion, hqueued, hrunning, hmemory⟩

theorem TaskStatus.faithful : (Codec.record .taskStatus).Faithful f n TaskStatus.encode := by
  refine Codec.faithful_record (r := .taskStatus) hf fun a members _ ha => ?_
  obtain ⟨id, hid, version, hversion, state, hstate, self, hself, queued, hqueued,
    running, hrunning, memory, hmemory, hmake⟩ := Body.reads_checked.mp ha
  obtain ⟨⟨rfl, rfl, rfl⟩, hv, hq, hr, hm⟩ := TaskStatus.make_eq_ok hmake
  refine ⟨_, Json.hasMembers_object (by simp), fun es hrw => Body.reads_checked.mpr ?_⟩
  have hid := hid.restored hrw (faithful_text hf TaskId.parse_text) rfl
  have hversion := hversion.restored_count hrw hv rfl
  have hstate := hstate.restored hrw (faithful_named hf) rfl
  have hself := hself.restored hrw (faithful_string hf) rfl
  have hqueued := hqueued.restored_count32 hrw hq rfl
  have hrunning := hrunning.restored_count32 hrw hr rfl
  have hmemory := hmemory.restored_count hrw hm rfl
  exact ⟨_, hid, version, hversion, _, hstate, _, hself, queued, hqueued, running, hrunning, memory,
    hmemory, hmake⟩

omit hf in
theorem Task.make_eq_ok {status : TaskStatus} {heartbeat : String} {output : OutputBuffer}
    {noMoreSplits : List PlanNodeId} {needsPlan : Bool} {t : Task}
    (h : make status heartbeat output noMoreSplits needsPlan = .ok t) :
    t = ⟨status, heartbeat, output, noMoreSplits, needsPlan⟩ := by
  simp only [make, bind_eq_ok_iff] at h
  obtain ⟨_, hheartbeat, heq⟩ := h
  obtain rfl := nonEmpty_eq_ok hheartbeat
  exact (Except.ok.inj heq).symm

theorem Task.faithful : (Codec.record .task).Faithful f n Task.encode := by
  refine Codec.faithful_record (r := .task) hf fun a members _ ha => ?_
  obtain ⟨status, hstatus, heartbeat, hheartbeat, output, houtput, splits, hsplits, needs, hneeds,
    hmake⟩ := Body.reads_checked.mp ha
  obtain rfl := Task.make_eq_ok hmake
  refine ⟨_, Json.hasMembers_object (by simp), fun es hrw => Body.reads_checked.mpr ?_⟩
  have hstatus := hstatus.restored hrw (TaskStatus.faithful hf n) rfl
  have hheartbeat := hheartbeat.restored hrw (faithful_string hf) rfl
  have houtput := houtput.restored hrw (OutputBuffer.faithful hf n) rfl
  have hsplits := hsplits.restored hrw ((faithful_nameId hf).list hf) rfl
  have hneeds := hneeds.restored hrw (faithful_bool hf) rfl
  exact ⟨status, hstatus, heartbeat, hheartbeat, output, houtput, splits, hsplits, needs, hneeds,
    hmake⟩

/-! ## Stages and failures -/

omit hf in
theorem Stage.encodeAll_eq_map (stages : List Stage) : encodeAll stages = stages.map encode := by
  induction stages with
  | nil => rfl
  | cons s rest ih => rw [encodeAll, ih, List.map_cons]

omit hf in
theorem Stage.make_eq_ok {id : StageId} {state : StageState} {plan : Option Fragment}
    {tasks : List Task} {subStages : List Stage} {s : Stage}
    (h : make id state plan tasks subStages = .ok s) : s = ⟨id, state, plan, tasks, subStages⟩ := by
  rw [make] at h
  split at h
  · cases h
  · exact (Except.ok.inj h).symm

theorem Stage.faithful : (Codec.record .stage).Faithful f n Stage.encode := by
  induction n with
  | zero => exact fun _ v _ hn => absurd hn (Nat.not_lt_zero _)
  | succ n ih =>
    refine fun s => Codec.restores_record (r := .stage) hf fun members _ ha => ?_
    obtain ⟨id, hid, state, hstate, plan, hplan, tasks, htasks, subStages, hsubStages, hmake⟩ :=
      Body.reads_checked.mp ha
    obtain rfl := Stage.make_eq_ok hmake
    refine ⟨[("stageId", .string id.text), ("state", .ofNamed state)] ++
      (Json.optionalMember "plan" (plan.map (·.encode)) ++
        [("tasks", .array (tasks.map (·.encode))),
          ("subStages", .array (subStages.map encode))]), ?_,
      fun es hrw => Body.reads_checked.mpr ?_⟩
    · rw [encode, encodeAll_eq_map]
      refine Json.hasMembers_object ?_
      cases plan <;> simp [Json.optionalMember]
    · have hid := hid.restored hrw (faithful_text hf StageId.parse_text) rfl
      have hstate := hstate.restored hrw (faithful_named hf) rfl
      have hplan := hplan.restored hrw (Fragment.faithful hf n) (by cases plan <;> rfl)
      have htasks := htasks.restored hrw ((Task.faithful hf n).list hf) (by cases plan <;> rfl)
      have hsubStages := hsubStages.restored hrw (ih.list hf) (by cases plan <;> rfl)
      -- the tasks are those that passed the check when the stage was read
      exact ⟨id, hid, state, hstate, plan, hplan, tasks, htasks, subStages, hsubStages, hmake⟩

omit hf in
theorem Failure.make_eq_ok {type : String} {message : Option String} {cause : Option Failure}
    {stack : List String} {e : Failure} (h : make type message cause stack = .ok e) :
    e = ⟨type, message, cause, stack⟩ := by
  simp only [make, bind_eq_ok_iff] at h
  obtain ⟨_, htype, heq⟩ := h
  obtain rfl := nonEmpty_eq_ok htype
  exact (Except.ok.inj heq).symm

/-- The members that are written for a failure. -/
def Failure.membersOf (e : Failure) : List (String × Json) :=
  [("type", .string e.type)] ++ (Json.optionalMember "message" (e.message.map .string) ++
    (Json.optionalMember "cause" (e.cause.map encode) ++
      Json.optionalMember "stack" (if e.stack = [] then none else some (.ofStrings e.stack))))

omit hf in
theorem Failure.encode_hasMembers (e : Failure) : e.encode.HasMembers e.membersOf := by
  obtain ⟨type, message, cause, stack⟩ := e
  have heq : (Failure.mk type message cause stack).encode =
      .object (membersOf ⟨type, message, cause, stack⟩) := by
    cases cause <;> by_cases hstack : stack = [] <;>
      simp [encode, membersOf, Json.optionalMember, hstack]
  rw [heq]
  refine Json.hasMembers_object ?_
  cases message <;> cases cause <;> by_cases hstack : stack = [] <;>
    simp [membersOf, Json.optionalMember, hstack]

/-- An empty stack is left out, and a stack that is left out is empty. -/
theorem Failure.reads_stack {members own es : List (String × Json)}
    {o : Option (List String)} (h : Codec.strings.ReadsOptional members "stack" o)
    (hrw : Json.Rewritten f n members own es)
    (hl : Json.lookup own "stack" =
      if o.getD [] = [] then none else some (.ofStrings (o.getD []))) :
    ∃ o', Codec.strings.ReadsOptional es "stack" o' ∧ o'.getD [] = o.getD [] := by
  by_cases hempty : o.getD [] = []
  · rw [if_pos hempty] at hl
    exact ⟨none, .of_none hl hrw.arranged, hempty.symm⟩
  · rw [if_neg hempty] at hl
    rcases h with ⟨-, rfl⟩ | ⟨stack, hstack, rfl⟩
    · exact absurd rfl hempty
    · exact ⟨_, Or.inr ⟨stack, hstack.restored hrw (faithful_strings hf) hl, rfl⟩, rfl⟩

theorem Failure.faithful : (Codec.record .failure).Faithful f n Failure.encode := by
  induction n with
  | zero => exact fun _ v _ hn => absurd hn (Nat.not_lt_zero _)
  | succ n ih =>
    refine fun e => Codec.restores_record (r := .failure) hf fun members _ ha => ?_
    obtain ⟨type, htype, message, hmessage, cause, hcause, o, ho, hmake⟩ :=
      Body.reads_checked.mp ha
    obtain rfl := Failure.make_eq_ok hmake
    refine ⟨_, encode_hasMembers _, fun es hrw => Body.reads_checked.mpr ?_⟩
    obtain ⟨o', ho', hstack⟩ := reads_stack hf n ho hrw (by
      simp [membersOf, Json.lookup_append, Json.lookup_cons, Json.lookup_optionalMember])
    have htype := htype.restored hrw (faithful_string hf) rfl
    have hmessage := hmessage.restored hrw (faithful_string hf)
      (by simp [membersOf, Json.lookup_append, Json.lookup_cons, Json.lookup_optionalMember])
    have hcause := hcause.restored hrw ih
      (by simp [membersOf, Json.lookup_append, Json.lookup_cons, Json.lookup_optionalMember])
    exact ⟨type, htype, message, hmessage, cause, hcause, o', ho', hstack ▸ hmake⟩

end QueryScope
