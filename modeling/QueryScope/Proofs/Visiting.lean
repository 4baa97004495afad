import QueryScope.Plan.Visitor
import QueryScope.Proofs.Preorder

/-!
# Walks that change a state

A walk fails only where some node is beyond it. Where it has an answer to every kind of node, all it
does is to change the state; what it does to the state is then a function, and that of a walk along
a list comes from those of its steps.
-/

namespace QueryScope

variable {σ α β : Type}

namespace Visit

/-! ## Running -/

theorem runFrom_pure (a : α) (s : σ) : (pure a : Visit σ α).runFrom s = (.ok a, s) := rfl

theorem runFrom_modify (f : σ → σ) (s : σ) :
    (modify f : Visit σ Unit).runFrom s = (.ok (), f s) := rfl

theorem runFrom_bind (visit : Visit σ α) (next : α → Visit σ β) (s : σ) :
    (visit >>= next).runFrom s = match visit.runFrom s with
      | (.ok a, t) => (next a).runFrom t
      | (.error e, t) => (.error e, t) := by
  show ExceptT.bindCont next (visit.runFrom s).1 (visit.runFrom s).2 = _
  rcases visit.runFrom s with ⟨a | e, t⟩ <;> rfl

/-! ## What becomes of the state -/

variable {f g : σ → σ}

/-- From every state the walk ends without an error, in the state that a function gives. -/
def Performs (visit : Visit σ Unit) (f : σ → σ) : Prop := ∀ s, visit.runFrom s = (.ok (), f s)

theorem performs_modify (f : σ → σ) : (modify f : Visit σ Unit).Performs f := runFrom_modify f

theorem Performs.bind {visit : Visit σ Unit} {next : Unit → Visit σ Unit} (h : visit.Performs f)
    (hnext : ∀ u, (next u).Performs g) : (visit >>= next).Performs fun s => g (f s) := by
  intro s
  rw [runFrom_bind, h s]
  exact hnext () (f s)

/-- A walk along a list changes the state at one element after the other. -/
theorem performs_forM {f : α → σ → σ} {nodes : List α} {act : α → Visit σ Unit}
    (h : ∀ a ∈ nodes, (act a).Performs (f a)) :
    (nodes.forM act).Performs fun s => nodes.foldl (fun s a => f a s) s := by
  induction nodes with
  | nil => exact runFrom_pure ()
  | cons a rest ih =>
    obtain ⟨ha, hrest⟩ := List.forall_mem_cons.mp h
    exact .bind ha fun _ => ih hrest

end Visit

/-! ## Plans -/

namespace PlanNode

theorem branches_eq_map (v : Visitor σ α) (nodes : List PlanNode) :
    branches v nodes = nodes.map fun node => ⟨node, accept v node⟩ := by
  induction nodes with
  | nil => rfl
  | cons node rest ih => rw [branches, ih, List.map_cons]

/-- Going on at the sources of a node changes the state as the walks over them do. -/
theorem performs_branches {v : Visitor σ Unit} {f : PlanNode → σ → σ} {nodes : List PlanNode}
    (h : ∀ node ∈ nodes, (node.accept v).Performs (f node)) :
    (Branch.visitAll (branches v nodes)).Performs fun s => nodes.foldl (fun s n => f n s) s := by
  have hall : ∀ b ∈ branches v nodes, b.visit.Performs (f b.node) := by
    rw [branches_eq_map]
    simpa using h
  have hperforms := Visit.performs_forM hall
  simpa only [Branch.visitAll, branches_eq_map, List.foldl_map] using hperforms

end PlanNode

end QueryScope
