import QueryScope.Plan.Basic
import QueryScope.Snapshot.Task

/-!
# Stages

A stage executes a fragment in tasks and reads from the stages below it.
-/

namespace QueryScope

/-- A stage with the stages that feed it. -/
structure Stage where
  /-- The stage. -/
  id : StageId
  /-- How far the stage has come. -/
  state : StageState
  /-- The fragment that it executes, once it is planned. -/
  plan : Option Fragment
  /-- Its tasks. -/
  tasks : List Task
  /-- The stages that feed it. -/
  subStages : List Stage

namespace Stage

/-- A stage from its parts. Every task has to belong to it; the first that does not is reported. -/
def make (id : StageId) (state : StageState) (plan : Option Fragment) (tasks : List Task)
    (subStages : List Stage) : Except FieldFault Stage :=
  match tasks.find? (fun t => t.id.stage ≠ id) with
  | some stray => .error ⟨"tasks", .invalid (.strayTask stray.id.text id.text)⟩
  | none => .ok { id, state, plan, tasks, subStages }

mutual

/-- The number of stages in the tree. -/
def size : Stage → Nat
  | ⟨_, _, _, _, subStages⟩ => sizeAll subStages + 1

/-- The number of stages in several trees. -/
def sizeAll : List Stage → Nat
  | [] => 0
  | s :: rest => s.size + sizeAll rest

end

theorem sizeAll_eq_totalSize (stages : List Stage) : sizeAll stages = totalSize size stages := by
  induction stages with
  | nil => rfl
  | cons s rest ih => simp [sizeAll, totalSize, ih]

instance : Branching Stage where
  children := subStages
  size := size
  size_children s := by
    cases s
    simp [size, sizeAll_eq_totalSize]

/-- The stage and all below it, every stage before those that feed it. -/
def all (s : Stage) : List Stage :=
  preorder [s]

/-- The first task with an identifier in the whole tree. -/
def findTask? (s : Stage) (id : TaskId) : Option Task :=
  (s.all.flatMap (·.tasks)).find? (·.id = id)

mutual

/-- The stage as JSON. -/
def encode : Stage → Json
  | ⟨id, state, plan, tasks, subStages⟩ =>
    .object
      ([("stageId", .string id.text), ("state", .ofNamed state)] ++
        (Json.optionalMember "plan" (plan.map (·.encode)) ++
          [("tasks", .array (tasks.map (·.encode))), ("subStages", .array (encodeAll subStages))]))

/-- Several stages as JSON. -/
def encodeAll : List Stage → List Json
  | [] => []
  | s :: rest => s.encode :: encodeAll rest

end

end Stage

end QueryScope
