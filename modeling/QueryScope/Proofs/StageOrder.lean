import QueryScope.Proofs.Belonging
import QueryScope.Proofs.Identity
import QueryScope.Sample

/-!
# Finding stages and tasks

The stages of a tree are listed by a loop over a stack, and stages and tasks are looked up in that
list. It is the one that the plain recursion gives: a stage, and then the trees of the stages that
feed it. A task that is found in a decoded tree stands where its identifier says, since every stage
of the tree, however deep, was read only with tasks of its own.
-/

namespace QueryScope

namespace Stage

variable {reg : Registry} {p : Path} {v : Json} {s : Stage} {t : TaskId} {task : Task}

/-! ## Tasks of a tree -/

/-- A stage is read with tasks of its own, and so are those that feed it. -/
theorem ownsTasks_depthFirst (h : (Codec.record .stage).Produces reg v s) :
    ∀ c ∈ s.depthFirst, c.OwnsTasks := by
  induction s using Branching.induction_on with
  | step s ih =>
    rw [depthFirst_eq]
    refine List.forall_mem_cons.mpr ⟨ownsTasks_of_produces h, fun c hc => ?_⟩
    obtain ⟨feeding, hmem, hc⟩ := List.mem_flatMap.mp hc
    exact ih feeding hmem ((produces_parts h).2 feeding hmem) c hc

/-! ## Looking up -/

theorem all_eq_depthFirst (s : Stage) : s.all = s.depthFirst := by
  rw [all, preorder_eq_depthFirst, List.flatMap_singleton]

theorem findTask?_eq (s : Stage) (t : TaskId) :
    s.findTask? t = (s.depthFirst.flatMap (·.tasks)).find? fun task => task.id = t := by
  rw [findTask?, all_eq_depthFirst]

theorem findTask?_eq_none_iff :
    s.findTask? t = none ↔ ∀ c ∈ s.depthFirst, ∀ task ∈ c.tasks, task.id ≠ t := by
  rw [findTask?_eq, List.find?_eq_none]
  simp only [List.mem_flatMap, forall_exists_index, and_imp, decide_eq_true_eq]
  exact ⟨fun h c hc task htask => h task c hc htask, fun h task c hc htask => h c hc task htask⟩

theorem findTask?_eq_some (h : s.findTask? t = some task) :
    task.id = t ∧ ∃ c ∈ s.depthFirst, task ∈ c.tasks := by
  rw [findTask?_eq] at h
  have hid : task.id = t := by simpa using List.find?_some h
  have hmem := List.mem_of_find?_eq_some h
  exact ⟨hid, List.mem_flatMap.mp hmem⟩

end Stage

/-- The stages of a tree are listed as the plain recursion lists them, a stage before the trees of
those that feed it. The task that is found under an identifier is the first one that has it, from
stage to stage in this order, and in a decoded tree it is listed by a stage that the identifier
names. In a query, too, the first stage of an identifier is found, and the fragments come in the
order of the stages that have one. -/
theorem Stage.lookups_depthFirst :
    (∀ s : Stage, s.all = s.depthFirst ∧ s.depthFirst = s :: s.subStages.flatMap depthFirst) ∧
    (∀ (s : Stage) (t : TaskId),
      s.findTask? t = (s.depthFirst.flatMap (·.tasks)).find? (fun task => task.id = t) ∧
      (s.findTask? t = none ↔ ∀ c ∈ s.depthFirst, ∀ task ∈ c.tasks, task.id ≠ t)) ∧
    (∀ (reg : Registry) (p : Path) (P : Json) (s : Stage),
      (Codec.record .stage).decodeAt reg p P = .ok s → ∀ t task, s.findTask? t = some task →
        task.id = t ∧ ∃ c ∈ s.depthFirst, task ∈ c.tasks ∧ c.id = t.stage) ∧
    ∀ q : Query,
      (∀ id, q.findStage? id =
        (q.outputStage.toList.flatMap depthFirst).find? fun s => s.id = id) ∧
      q.fragments = (q.outputStage.toList.flatMap depthFirst).filterMap (·.plan) := by
  refine ⟨fun s => ⟨all_eq_depthFirst s, depthFirst_eq s⟩,
    fun s t => ⟨findTask?_eq s t, findTask?_eq_none_iff⟩, ?_, fun q => ⟨fun id => ?_, ?_⟩⟩
  · intro reg p P s h t task htask
    obtain ⟨rfl, c, hc, hmem⟩ := findTask?_eq_some htask
    have hown := ownsTasks_depthFirst ⟨p, P, .self, h⟩ c hc
    exact ⟨rfl, c, hc, hmem, (hown task hmem).symm⟩
  · rw [Query.findStage?, Query.stages_eq]
  · exact q.fragments_eq

/-- A stage without tasks that is fed by one with a task. -/
def Stage.fedPayload : Json :=
  Sample.Stage.payload {
    id := "q.0"
    subStages := [Sample.Stage.payload {
      id := "q.1"
      tasks := [Sample.Task.payload { id := "q.1.0" }] }] }

theorem Stage.decode_fedPayload :
    (Payload.decode Stage fedPayload).map (fun s =>
      (s.depthFirst.flatMap (·.tasks)).map (·.id.text)) = .ok ["q.1.0"] := by
  decide +kernel

theorem Stage.lookups_depthFirst_fed :
    ∃ s t task, Payload.decode Stage fedPayload = .ok s ∧ s.findTask? t = some task ∧
      t.text = "q.1.0" ∧ ∃ c ∈ s.depthFirst, task ∈ c.tasks ∧ c.id = t.stage := by
  obtain ⟨s, hs, htasks⟩ := map_eq_ok_iff.mp decode_fedPayload
  obtain ⟨task, hsingle, htext⟩ := List.map_eq_singleton_iff.mp htasks
  obtain ⟨-, hfind, hplace, -⟩ := lookups_depthFirst
  have htask : s.findTask? task.id = some task := by
    rw [(hfind s task.id).1, hsingle]
    simp
  exact ⟨s, task.id, task, hs, htask, htext, (hplace _ _ _ s hs _ task htask).2⟩

end QueryScope
