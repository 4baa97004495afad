import Mathlib.Data.List.Basic
import Mathlib.Data.Nat.Init
import QueryScope.Snapshot.Stage

/-!
# Pre-order by recursion

Listing with a stack and listing by recursion come to the same: a node is followed by the trees of
its children, one tree after the other.
-/

namespace QueryScope

variable {α : Type} [Branching α]

open Branching (children size)

theorem preorder_cons (a : α) (rest : List α) :
    preorder (a :: rest) = a :: preorder (children a ++ rest) := by
  rw [preorder]

@[simp] theorem preorder_nil : preorder ([] : List α) = [] := by
  rw [preorder]

/-- What lies deeper in the stack is listed after all that lies above it. -/
@[simp] theorem preorder_append (above below : List α) :
    preorder (above ++ below) = preorder above ++ preorder below := by
  induction above using preorder.induct with
  | case1 => rw [List.nil_append, preorder_nil, List.nil_append]
  | case2 a rest ih =>
    rw [List.cons_append, preorder_cons, preorder_cons, ← List.append_assoc, ih, List.cons_append]

theorem preorder_eq_flatMap (nodes : List α) :
    preorder nodes = nodes.flatMap fun a => preorder [a] := by
  induction nodes with
  | nil => rw [preorder_nil, List.flatMap_nil]
  | cons a rest ih =>
    rw [← List.singleton_append, preorder_append, ih, List.flatMap_append, List.flatMap_singleton]

/-- A tree is listed as its root and then the trees of the root's children. -/
theorem preorder_singleton (a : α) :
    preorder [a] = a :: (children a).flatMap fun c => preorder [c] := by
  rw [preorder_cons, List.append_nil, preorder_eq_flatMap]

/-- What holds of the roots and passes from a node to its children holds of every node. -/
theorem forall_mem_preorder {P : α → Prop} {roots : List α} (hroots : ∀ a ∈ roots, P a)
    (hchildren : ∀ a, P a → ∀ c ∈ children a, P c) : ∀ a ∈ preorder roots, P a := by
  induction roots using preorder.induct with
  | case1 => simp
  | case2 a rest ih =>
    obtain ⟨ha, hrest⟩ := List.forall_mem_cons.mp hroots
    have hstack : ∀ c ∈ children a ++ rest, P c := by
      intro c hc
      rcases List.mem_append.mp hc with hc | hc
      · exact hchildren a ha c hc
      · exact hrest c hc
    rw [preorder_cons]
    exact List.forall_mem_cons.mpr ⟨ha, ih hstack⟩

theorem mem_preorder_of_mem {roots : List α} {a : α} (h : a ∈ roots) : a ∈ preorder roots := by
  rw [preorder_eq_flatMap, List.mem_flatMap]
  refine ⟨a, h, ?_⟩
  rw [preorder_singleton]
  exact List.mem_cons_self

/-- Every child of a node that is listed is listed too. -/
theorem mem_preorder_of_mem_children {roots : List α} {a c : α} (ha : a ∈ preorder roots)
    (hc : c ∈ children a) : c ∈ preorder roots := by
  induction roots using preorder.induct with
  | case1 => simp at ha
  | case2 b rest ih =>
    rw [preorder_cons, List.mem_cons] at ha ⊢
    rcases ha with rfl | ha
    · exact Or.inr (mem_preorder_of_mem (List.mem_append_left rest hc))
    · exact Or.inr (ih ha)

theorem Branching.size_le_of_mem {a : α} {nodes : List α} (h : a ∈ nodes) :
    size a ≤ totalSize size nodes := by
  induction nodes with
  | nil => cases h
  | cons b rest ih =>
    rw [totalSize]
    rcases List.mem_cons.mp h with rfl | h
    · omega
    · have := ih h
      omega

/-- To prove a property of all nodes, prove it of a node whose children have it. -/
theorem Branching.induction_on {motive : α → Prop} (a : α)
    (step : ∀ a, (∀ c ∈ children a, motive c) → motive a) : motive a := by
  -- a child has fewer nodes below it than its parent
  induction hn : size a using Nat.strong_induction_on generalizing a with
  | _ n ih =>
    subst hn
    refine step a fun c hc => ih _ ?_ c rfl
    have := size_le_of_mem hc
    have := size_children a
    omega

/-! ## Folds -/

/-- The result for a tree, put together from the root and the results for the root's children. -/
def Branching.fold {β : Type} (build : α → List β → β) (a : α) : β :=
  build a ((children a).attach.map fun c => fold build c.1)
termination_by size a
decreasing_by
  have hle := size_le_of_mem c.2
  have hlt := size_children a
  omega

theorem Branching.fold_eq {β : Type} (build : α → List β → β) (a : α) :
    fold build a = build a ((children a).map (fold build)) := by
  rw [fold, List.attach_map_val]

/-- The root, and then the trees of its children, one after the other. -/
def Branching.depthFirst (a : α) : List α :=
  fold (fun a below => a :: below.flatten) a

theorem Branching.depthFirst_eq (a : α) : depthFirst a = a :: (children a).flatMap depthFirst := by
  rw [depthFirst, fold_eq, List.flatMap_def]
  rfl

/-- The loop over a stack lists the nodes as the recursion over the trees does. -/
theorem Branching.preorder_eq_flatMap (stack : List α) :
    preorder stack = stack.flatMap depthFirst := by
  induction stack using preorder.induct with
  | case1 => rw [preorder_nil, List.flatMap_nil]
  | case2 a rest ih =>
    rw [preorder_cons, ih, List.flatMap_append, List.flatMap_cons, depthFirst_eq, List.cons_append]

/-- What is found first in lists one after the other is found first in one of them. -/
theorem findSome?_flatMap {β γ δ : Type} {f : β → List γ} {g : γ → Option δ} {found : β → Option δ}
    {bs : List β} (h : ∀ b ∈ bs, found b = (f b).findSome? g) :
    bs.findSome? found = (bs.flatMap f).findSome? g := by
  induction bs with
  | nil => rfl
  | cons b rest ih =>
    obtain ⟨hb, hrest⟩ := List.forall_mem_cons.mp h
    rw [List.flatMap_cons, List.findSome?_append, List.findSome?_cons, ih hrest, hb]
    cases (f b).findSome? g <;> rfl

/-! ## Leaves -/

/-- The nodes of a tree that have no children, from left to right. -/
def leaves (a : α) : List α :=
  (preorder [a]).filter fun b => (children b).isEmpty

theorem leaves_of_children_eq_nil {a : α} (h : children a = []) : leaves a = [a] := by
  rw [leaves, preorder_singleton, h]
  simp [h]

/-- The leaves of an inner node are those of its children. -/
theorem leaves_of_children_ne_nil {a : α} (h : children a ≠ []) :
    leaves a = (children a).flatMap leaves := by
  have hinner : (children a).isEmpty = false := by simpa using h
  rw [leaves, preorder_singleton, List.filter_cons_of_neg (by simp [hinner]), List.filter_flatMap]
  rfl

theorem children_eq_nil_of_mem_leaves {a b : α} (h : b ∈ leaves a) : children b = [] := by
  simpa using (List.mem_filter.mp h).2

/-! ## Expressions -/

namespace Expression

mutual

/-- The number of nodes. -/
def size : Expression → Nat
  | .comparison _ left right => left.size + right.size + 1
  | .logicalBinary _ left right => left.size + right.size + 1
  | .arithmeticBinary _ left right => left.size + right.size + 1
  | .not value => value.size + 1
  | .isNull value => value.size + 1
  | .between value min max => value.size + min.size + max.size + 1
  | .functionCall _ arguments _ => sizeAll arguments + 1
  | .cast operand _ _ => operand.size + 1
  | .identifier _ | .symbol _ | .long _ | .double _ | .string _ | .boolean _ | .null
  | .parameter _ | .subquery _ => 1

/-- The number of nodes in several expressions. -/
def sizeAll : List Expression → Nat
  | [] => 0
  | e :: rest => e.size + sizeAll rest

end

theorem sizeAll_eq_totalSize (es : List Expression) : sizeAll es = totalSize size es := by
  induction es with
  | nil => rfl
  | cons e rest ih => rw [sizeAll, totalSize, ih]

instance : Branching Expression where
  children := children
  size := size
  size_children e := by
    cases e <;> simp [children, size, totalSize, sizeAll_eq_totalSize]
    omega

end Expression

/-! ## Stages -/

namespace Stage

mutual

/-- The stage, and then the trees of the stages that feed it. -/
def depthFirst : Stage → List Stage
  | ⟨id, state, plan, tasks, subStages⟩ =>
    ⟨id, state, plan, tasks, subStages⟩ :: depthFirstAll subStages

/-- The trees of several stages one after the other. -/
def depthFirstAll : List Stage → List Stage
  | [] => []
  | s :: rest => s.depthFirst ++ depthFirstAll rest

end

theorem depthFirstAll_eq_flatMap (stages : List Stage) :
    depthFirstAll stages = stages.flatMap depthFirst := by
  induction stages with
  | nil => rfl
  | cons s rest ih => rw [depthFirstAll, ih, List.flatMap_cons]

theorem depthFirst_eq (s : Stage) : s.depthFirst = s :: s.subStages.flatMap depthFirst := by
  cases s
  rw [depthFirst, depthFirstAll_eq_flatMap]

/-- The loop over a stack of stages lists them as the recursion over their trees does. -/
theorem preorder_eq_depthFirst (stages : List Stage) :
    preorder stages = stages.flatMap depthFirst := by
  have hsingle (s : Stage) : Branching.depthFirst s = s.depthFirst := by
    induction s using Branching.induction_on with
    | step s ih =>
      rw [Branching.depthFirst_eq, depthFirst_eq]
      exact congrArg (s :: ·) (List.flatMap_congr ih)
  rw [Branching.preorder_eq_flatMap]
  exact List.flatMap_congr fun s _ => hsingle s

end Stage

end QueryScope
