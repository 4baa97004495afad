/-!
# Pre-order

Listing a tree with a stack: the node on top is listed and its children take its place, so every
node comes before its children and the children come in order.
-/

namespace QueryScope

/-- The sizes of several trees together. -/
def totalSize {α : Type} (size : α → Nat) : List α → Nat
  | [] => 0
  | a :: rest => size a + totalSize size rest

@[simp] theorem totalSize_append {α : Type} (size : α → Nat) (xs ys : List α) :
    totalSize size (xs ++ ys) = totalSize size xs + totalSize size ys := by
  induction xs with
  | nil => simp [totalSize]
  | cons a rest ih => simp [totalSize, ih, Nat.add_assoc]

/-- A type of finite trees. -/
class Branching (α : Type) where
  /-- The direct children, in order. -/
  children : α → List α
  /-- A size that the children together stay below. -/
  size : α → Nat
  /-- The children together are smaller. -/
  size_children (a : α) : totalSize size (children a) < size a

/-- The nodes of the trees on a stack, every node before its children. -/
def preorder {α : Type} [Branching α] : (stack : List α) → List α
  | [] => []
  | a :: rest => a :: preorder (Branching.children a ++ rest)
termination_by stack => totalSize Branching.size stack
decreasing_by
  have := Branching.size_children a
  simp only [totalSize_append, totalSize]
  omega

end QueryScope
