import QueryScope.Proofs.Produced

/-!
# What belongs to a query

A stage is read only with tasks of its own, and a query only with an output stage of its own, so
that every task in the tree of a query belongs to the stage that lists it. Nothing is asked of the
stages that feed another one: all stages belong to the query just as long as no stage is fed by one
of another query.
-/

namespace QueryScope

variable {reg : Registry} {v : Json}

/-! ## Tasks -/

/-- Every task that the stage lists belongs to it. -/
def Stage.OwnsTasks (s : Stage) : Prop := ∀ t ∈ s.tasks, t.id.stage = s.id

theorem Stage.make_ownsTasks {id : StageId} {state : StageState} {plan : Option Fragment}
    {tasks : List Task} {subStages : List Stage} {s : Stage}
    (h : make id state plan tasks subStages = .ok s) : s.OwnsTasks := by
  unfold make at h
  split at h
  next stray hstray => cases h
  next hnone =>
    obtain rfl := Except.ok.inj h
    intro t ht
    have hfits := List.find?_eq_none.mp hnone t ht
    simpa using hfits

theorem Stage.ownsTasks_of_produces {s : Stage} (h : (Codec.record .stage).Produces reg v s) :
    s.OwnsTasks := by
  obtain ⟨id, state, plan, tasks, subStages, hmake, -⟩ := exists_of_produces h
  exact make_ownsTasks hmake

/-! ## Stages -/

namespace Query

variable {q : Query}

theorem outputStage_belongs (h : (Codec.record .query).Produces reg v q) {s : Stage}
    (hs : q.outputStage = some s) : s.id.query = q.id := by
  obtain ⟨id, state, pool, scheduled, self, query, stats, transaction, outputStage, failure, hmake,
    -⟩ := exists_of_produces h
  obtain ⟨rfl, houtput⟩ := Query.make_eq_ok hmake
  exact houtput s hs

/-- Where no stage is fed by one of another query, the output stage passes its query on to all. -/
theorem stages_belong_of_subStages (houtput : ∀ s, q.outputStage = some s → s.id.query = q.id)
    (hfed : ∀ s ∈ q.stages, ∀ c ∈ s.subStages, c.id.query = s.id.query) :
    ∀ s ∈ q.stages, s.id.query = q.id := by
  have hall : ∀ s ∈ q.stages, s ∈ q.stages ∧ s.id.query = q.id := by
    refine forall_mem_preorder (fun s hs => ?_) ?_
    · exact ⟨mem_preorder_of_mem hs, houtput s (Option.mem_toList.mp hs)⟩
    · rintro s ⟨hs, hquery⟩ c hc
      exact ⟨mem_preorder_of_mem_children hs hc, (hfed s hs c hc).trans hquery⟩
  exact fun s hs => (hall s hs).2

/-- In the tree of a decoded query every task belongs to the stage that lists it, and the output
stage belongs to the query. All stages, and with them all tasks, belong to the query if and only if
no stage of the tree is fed by a stage of another query. -/
theorem stages_belong_iff {P : Json} {q : Query} (h : Payload.decode Query P = .ok q) :
    (∀ s ∈ q.stages, ∀ t ∈ s.tasks, t.id.stage = s.id) ∧
      (∀ s, q.outputStage = some s → s.id.query = q.id) ∧
      ((∀ s ∈ q.stages, s.id.query = q.id ∧ ∀ t ∈ s.tasks, t.id.stage.query = q.id) ↔
        ∀ s ∈ q.stages, ∀ c ∈ s.subStages, c.id.query = s.id.query) := by
  have hproduced : (Codec.record .query).Produces .standard P q := ⟨.root, P, .self, h⟩
  have htasks : ∀ s ∈ q.stages, s.OwnsTasks := fun s hs =>
    Stage.ownsTasks_of_produces (produces_stages hproduced s hs)
  have houtput : ∀ s, q.outputStage = some s → s.id.query = q.id :=
    fun s => outputStage_belongs hproduced
  refine ⟨htasks, houtput, fun hall s hs c hc => ?_, fun hfed s hs => ?_⟩
  · have hmem : c ∈ q.stages := mem_preorder_of_mem_children hs hc
    exact (hall c hmem).1.trans (hall s hs).1.symm
  · have hquery := stages_belong_of_subStages houtput hfed s hs
    refine ⟨hquery, fun t ht => ?_⟩
    rw [htasks s hs t ht, hquery]

/-! ## A stage of another query -/

/-- A query whose output stage is fed by a stage of another query. -/
def strayPayload : Json :=
  .object [("memoryPool", .string "general"),
    ("outputStage", .object [("stageId", .string "q.0"), ("state", .string "RUNNING"),
      ("subStages", .array [.object [("stageId", .string "other.1"), ("state", .string "RUNNING"),
        ("subStages", .array []), ("tasks", .array [])]]), ("tasks", .array [])]),
    ("query", .string "SELECT 1"), ("queryId", .string "q"),
    ("queryStats", .object [("completedDrivers", .ofInt64 0), ("completedTasks", .ofInt64 0),
      ("createTime", .string "now"), ("elapsedTime", .string "1s"),
      ("peakUserMemoryReservation", .string "1B"), ("queuedDrivers", .ofInt64 0),
      ("rawInputDataSize", .string "1B"), ("rawInputPositions", .ofInt64 0),
      ("runningDrivers", .ofInt64 0), ("runningTasks", .ofInt64 0), ("totalDrivers", .ofInt64 0),
      ("totalTasks", .ofInt64 0)]),
    ("scheduled", .bool true), ("self", .string "here"), ("state", .string "RUNNING")]

theorem wellFormed_strayPayload : strayPayload.WellFormed := by
  decide

theorem decode_strayPayload :
    (Payload.decode Query strayPayload).map (fun q =>
      (q.id.text, (q.outputStage.toList.flatMap Stage.depthFirst).map (·.id.query.text))) =
      .ok ("q", ["q", "other"]) := by
  decide +kernel

theorem exists_stray_stage :
    ∃ q, Payload.decode Query strayPayload = .ok q ∧ ∃ s ∈ q.stages, s.id.query ≠ q.id := by
  obtain ⟨q, hq, hfound⟩ := map_eq_ok_iff.mp decode_strayPayload
  obtain ⟨hid, hqueries⟩ := Prod.mk.inj hfound
  rw [← Stage.preorder_eq_depthFirst] at hqueries
  have hother : "other" ∈ q.stages.map (·.id.query.text) := by
    rw [stages, hqueries]
    exact List.mem_cons_of_mem _ List.mem_cons_self
  obtain ⟨s, hs, hquery⟩ := List.mem_map.mp hother
  refine ⟨q, hq, s, hs, fun heq => ?_⟩
  rw [heq, hid] at hquery
  exact absurd hquery (by decide)

/-- The stage is accepted with the query, and found in its tree. -/
theorem stray_stage_found : strayPayload.WellFormed ∧
    ∃ q, Payload.decode Query strayPayload = .ok q ∧ ∃ s ∈ q.stages, s.id.query ≠ q.id :=
  ⟨wellFormed_strayPayload, exists_stray_stage⟩

theorem stray_stage_feeds_another : strayPayload.WellFormed ∧
    ∃ q, Payload.decode Query strayPayload = .ok q ∧
      ∃ s ∈ q.stages, ∃ c ∈ s.subStages, c.id.query ≠ s.id.query := by
  obtain ⟨q, hq, s, hs, hquery⟩ := exists_stray_stage
  refine ⟨wellFormed_strayPayload, q, hq, ?_⟩
  by_contra! hfed
  exact hquery ((stages_belong_iff hq).2.2.mpr hfed s hs).1

end Query

end QueryScope
