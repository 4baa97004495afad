import QueryScope.Expression.Visitor
import QueryScope.Proofs.Visiting

/-!
# The fallback of a visitor

A visitor that has nothing but a fallback has it called once at the root of a tree, with the root's
kind and its children. A fallback that does something at its node and goes on at the children does
it at all nodes in pre-order, up to the first node where it fails.
-/

namespace QueryScope

variable {α β σ ν : Type}

open Branching (children)

/-! ## Walks along a list -/

namespace Visit

theorem runFrom_bind_ok {visit : Visit σ α} {next : α → Visit σ β} {s t : σ} {a : α}
    (h : visit.runFrom s = (.ok a, t)) : (visit >>= next).runFrom s = (next a).runFrom t := by
  rw [runFrom_bind, h]

theorem runFrom_bind_error {visit : Visit σ α} {next : α → Visit σ β} {s t : σ} {e : VisitError}
    (h : visit.runFrom s = (.error e, t)) : (visit >>= next).runFrom s = (.error e, t) := by
  rw [runFrom_bind, h]

theorem forM_congr {nodes : List α} {act act' : α → Visit σ Unit}
    (h : ∀ a ∈ nodes, act a = act' a) : forM nodes act = forM nodes act' := by
  induction nodes with
  | nil => rfl
  | cons a rest ih =>
    obtain ⟨ha, hrest⟩ := List.forall_mem_cons.mp h
    rw [List.forM_cons, List.forM_cons, ha, ih hrest]

theorem forM_flatMap (nodes : List α) (below : α → List ν) (act : ν → Visit σ Unit) :
    forM (nodes.flatMap below) act = forM nodes fun a => forM (below a) act := by
  induction nodes with
  | nil => rfl
  | cons a rest ih => rw [List.flatMap_cons, List.forM_append, List.forM_cons, ih]

/-- A walk along a list fails exactly where the first step that fails does. -/
theorem runFrom_forM_error_iff {nodes : List α} {act : α → Visit σ Unit} {s t : σ}
    {e : VisitError} :
    (forM nodes act).runFrom s = (.error e, t) ↔
      ∃ before a after u, nodes = before ++ a :: after ∧
        (forM before act).runFrom s = (.ok (), u) ∧ (act a).runFrom u = (.error e, t) := by
  constructor
  · intro h
    induction nodes generalizing s with
    | nil => cases h
    | cons a rest ih =>
      rw [List.forM_cons] at h
      cases ha : (act a).runFrom s with
      | mk result u =>
        cases result with
        | error e' =>
          rw [runFrom_bind_error ha] at h
          exact ⟨[], a, rest, s, rfl, rfl, ha.trans h⟩
        | ok _ =>
          rw [runFrom_bind_ok ha] at h
          obtain ⟨before, b, after, v, rfl, hbefore, hb⟩ := ih h
          refine ⟨a :: before, b, after, v, rfl, ?_, hb⟩
          rw [List.forM_cons, runFrom_bind_ok ha, hbefore]
  · rintro ⟨before, a, after, u, rfl, hbefore, ha⟩
    rw [List.forM_append, runFrom_bind_ok hbefore, List.forM_cons, runFrom_bind_error ha]

theorem runFrom_forM_append_each (f : α → β) (nodes : List α) (seen : List β) :
    (forM nodes fun a => (modify (· ++ [f a]) : Visit (List β) Unit)).runFrom seen =
      (.ok (), seen ++ nodes.map f) := by
  have happend : (forM nodes fun a => (modify (· ++ [f a]) : Visit (List β) Unit)).Performs _ :=
    performs_forM fun a _ => performs_modify (· ++ [f a])
  rw [happend seen, List.foldl_append_eq_append, ← List.flatMap_def, ← List.map_eq_flatMap]

end Visit

/-! ## Records -/

/-- The action adds the kind of its node to the record, whether or not it fails afterwards. -/
def Records (record : σ → List String) (own : String → List ν → Visit σ Unit) : Prop :=
  ∀ kind nodes s, record ((own kind nodes).runFrom s).2 = record s ++ [kind]

namespace Records

variable {record : σ → List String} {own : String → List ν → Visit σ Unit}

theorem of_runFrom (h : Records record own) {kind : String} {nodes : List ν} {s t : σ}
    {result : Except VisitError Unit} (hrun : (own kind nodes).runFrom s = (result, t)) :
    record t = record s ++ [kind] := by
  have hkind := h kind nodes s
  rwa [hrun] at hkind

theorem of_forM (h : Records record own) (kind : ν → String) (below : ν → List ν) {nodes : List ν}
    {s t : σ} (hrun : (forM nodes fun n => own (kind n) (below n)).runFrom s = (.ok (), t)) :
    record t = record s ++ nodes.map kind := by
  induction nodes generalizing s with
  | nil =>
    obtain rfl : s = t := congrArg Prod.snd hrun
    simp
  | cons n rest ih =>
    rw [List.forM_cons] at hrun
    cases hn : (own (kind n) (below n)).runFrom s with
    | mk result u =>
      cases result with
      | error e =>
        rw [Visit.runFrom_bind_error hn] at hrun
        cases hrun
      | ok _ =>
        rw [Visit.runFrom_bind_ok hn] at hrun
        rw [ih hrun, h.of_runFrom hn, List.append_assoc, List.singleton_append, List.map_cons]

end Records

/-! ## Going down a tree -/

namespace Branch

/-- Do something at a node, which is told by its kind and its children, then go on at each of
these. -/
def descend (own : String → List ν → Visit σ Unit) (kind : String)
    (branches : List (Branch ν σ Unit)) : Visit σ Unit := do
  own kind (branches.map (·.node))
  visitAll branches

variable [Branching ν]

/-- The children of a node, each with the walk over it. -/
def below (walk : ν → Visit σ α) (a : ν) : List (Branch ν σ α) :=
  (children a).map fun c => ⟨c, walk c⟩

theorem descend_below (own : String → List ν → Visit σ Unit) (kind : String)
    (walk : ν → Visit σ Unit) (a : ν) :
    descend own kind (below walk a) =
      (own kind (children a) >>= fun _ => forM (children a) walk) := by
  have hnodes : (below walk a).map (·.node) = children a := by
    simp [below, Function.comp_def]
  have hvisits : visitAll (below walk a) = forM (children a) walk := by
    rw [visitAll, below, List.forM_eq_forM, List.forM_map]
  rw [descend, hnodes, hvisits]

omit [Branching ν] in
theorem trace_eq_descend (kind : String) (branches : List (Branch ν (List (String × Nat)) Unit)) :
    trace kind branches =
      descend (fun kind nodes => modify (· ++ [(kind, nodes.length)])) kind branches := by
  rw [trace, descend, List.length_map]

end Branch

variable [Branching ν] {kind : ν → String}
  {walk : ∀ {σ α : Type}, (String → List (Branch ν σ α) → Visit σ α) → ν → Visit σ α}

/-- The walk over a tree is the one call of the fallback, with the kind and the children of the
root. -/
def CallsFallback (kind : ν → String)
    (walk : ∀ {σ α : Type}, (String → List (Branch ν σ α) → Visit σ α) → ν → Visit σ α) : Prop :=
  ∀ {σ α : Type} (fallback : String → List (Branch ν σ α) → Visit σ α) (a : ν),
    walk fallback a = fallback (kind a) (Branch.below (walk fallback) a)

namespace CallsFallback

theorem walk_descend (h : CallsFallback kind walk) (own : String → List ν → Visit σ Unit) (a : ν) :
    walk (Branch.descend own) a = forM (preorder [a]) fun n => own (kind n) (children n) := by
  induction a using Branching.induction_on with
  | step a ih =>
    have hroot : walk (Branch.descend own) a =
        Branch.descend own (kind a) (Branch.below (walk (Branch.descend own)) a) :=
      h (Branch.descend own) a
    -- on both sides the action at `a` comes first, and then one walk for each child
    have hchildren : forM (children a) (walk (Branch.descend own)) =
        forM ((children a).flatMap fun c => preorder [c]) fun n => own (kind n) (children n) := by
      rw [Visit.forM_flatMap]
      exact Visit.forM_congr ih
    rw [hroot, Branch.descend_below, hchildren, preorder_singleton, List.forM_cons]

theorem walk_record (h : CallsFallback kind walk) (a : ν) (seen : List String) :
    (walk (Branch.descend fun kind _ => modify (· ++ [kind])) a).runFrom seen =
      (.ok (), seen ++ (preorder [a]).map kind) := by
  rw [h.walk_descend, Visit.runFrom_forM_append_each]

theorem walk_trace (h : CallsFallback kind walk) (a : ν) (seen : List (String × Nat)) :
    (walk Branch.trace a).runFrom seen =
      (.ok (), seen ++ (preorder [a]).map fun n => (kind n, (children n).length)) := by
  have htrace : (Branch.trace : String → List (Branch ν _ Unit) → Visit _ Unit) =
      Branch.descend fun kind nodes => modify (· ++ [(kind, nodes.length)]) :=
    funext fun kind => funext fun branches => Branch.trace_eq_descend kind branches
  rw [htrace, h.walk_descend, Visit.runFrom_forM_append_each]

variable {record : σ → List String} {own : String → List ν → Visit σ Unit}

theorem record_of_ok (h : CallsFallback kind walk) (hown : Records record own) {a : ν} {s t : σ}
    (hrun : (walk (Branch.descend own) a).runFrom s = (.ok (), t)) :
    record t = record s ++ (preorder [a]).map kind := by
  rw [h.walk_descend] at hrun
  exact hown.of_forM kind children hrun

theorem error_iff (h : CallsFallback kind walk) (hown : Records record own) {a : ν} {s t : σ}
    {e : VisitError} :
    (walk (Branch.descend own) a).runFrom s = (.error e, t) ↔
      ∃ before n after u, preorder [a] = before ++ n :: after ∧
        (forM before fun m => own (kind m) (children m)).runFrom s = (.ok (), u) ∧
        (own (kind n) (children n)).runFrom u = (.error e, t) ∧
        record t = record s ++ (before ++ [n]).map kind := by
  rw [h.walk_descend, Visit.runFrom_forM_error_iff]
  constructor
  · rintro ⟨before, n, after, u, hsplit, hbefore, hn⟩
    refine ⟨before, n, after, u, hsplit, hbefore, hn, ?_⟩
    rw [hown.of_runFrom hn, hown.of_forM kind children hbefore, List.append_assoc, List.map_append,
      List.map_singleton]
  · rintro ⟨before, n, after, u, hsplit, hbefore, hn, -⟩
    exact ⟨before, n, after, u, hsplit, hbefore, hn⟩

end CallsFallback

/-- What a visitor that has nothing but a fallback does on the trees of a family of nodes, `walk`
being the walk with the fallback that it is given. -/
structure WalksInPreorder (kind : ν → String)
    (walk : ∀ {σ α : Type}, (String → List (Branch ν σ α) → Visit σ α) → ν → Visit σ α) :
    Prop where
  /-- The fallback is called once, with the kind and the children of the root. -/
  once : CallsFallback kind walk
  /-- What a fallback does before going down, it does at the nodes in pre-order. -/
  sequence {σ : Type} (own : String → List ν → Visit σ Unit) (a : ν) :
    walk (Branch.descend own) a = forM (preorder [a]) fun n => own (kind n) (children n)
  /-- A fallback that records the kind before going down records all kinds in pre-order. -/
  recorded (a : ν) (seen : List String) :
    (walk (Branch.descend fun kind _ => modify (· ++ [kind])) a).runFrom seen =
      (.ok (), seen ++ (preorder [a]).map kind)
  /-- It does so, too, where it could have failed at some node. -/
  completed {σ : Type} {record : σ → List String} {own : String → List ν → Visit σ Unit}
    (hown : Records record own) {a : ν} {s t : σ}
    (hrun : (walk (Branch.descend own) a).runFrom s = (.ok (), t)) :
    record t = record s ++ (preorder [a]).map kind
  /-- The walk fails exactly if some node does after all nodes before it, and has then recorded the
  kinds up to that node. -/
  stopped {σ : Type} {record : σ → List String} {own : String → List ν → Visit σ Unit}
    (hown : Records record own) {a : ν} {s t : σ} {e : VisitError} :
    (walk (Branch.descend own) a).runFrom s = (.error e, t) ↔
      ∃ before n after u, preorder [a] = before ++ n :: after ∧
        (forM before fun m => own (kind m) (children m)).runFrom s = (.ok (), u) ∧
        (own (kind n) (children n)).runFrom u = (.error e, t) ∧
        record t = record s ++ (before ++ [n]).map kind

theorem CallsFallback.walksInPreorder (h : CallsFallback kind walk) :
    WalksInPreorder kind walk where
  once := h
  sequence := h.walk_descend
  recorded := h.walk_record
  completed := h.record_of_ok
  stopped := h.error_iff

/-! ## Expressions and plans -/

namespace Expression

theorem operands_eq_map (v : Visitor σ α) (es : List Expression) :
    operands v es = es.map fun e => ⟨e, accept v e⟩ := by
  induction es with
  | nil => rfl
  | cons e rest ih => rw [operands, ih, List.map_cons]

theorem accept_fallback :
    CallsFallback Expression.kind fun {σ α} fallback => accept ({ fallback } : Visitor σ α) := by
  intro σ α fallback e
  cases e with
  | functionCall name arguments distinct =>
    have hoperands := operands_eq_map { fallback } arguments
    exact congrArg (fallback "functionCall") hoperands
  | _ => rfl

/-- The trace of an expression lists its nodes in pre-order. -/
theorem runFrom_tracing (e : Expression) (seen : List (String × Nat)) :
    (e.accept .tracing).runFrom seen =
      (.ok (), seen ++ (preorder [e]).map fun n => (n.kind, n.children.length)) :=
  accept_fallback.walk_trace e seen

end Expression

namespace PlanNode

theorem accept_fallback :
    CallsFallback PlanNode.kind fun {σ α} fallback => accept ({ fallback } : Visitor σ α) := by
  intro σ α fallback node
  cases node with
  | exchange id type scope scheme sources =>
    have hbranches := branches_eq_map { fallback } sources
    exact congrArg (fallback "exchange") hbranches
  | _ => rfl

/-- The trace of a plan lists its nodes in pre-order. -/
theorem runFrom_tracing (node : PlanNode) (seen : List (String × Nat)) :
    (node.accept .tracing).runFrom seen =
      (.ok (), seen ++ (preorder [node]).map fun n => (n.kind, n.sources.length)) :=
  accept_fallback.walk_trace node seen

end PlanNode

/-- On expressions and plans alike, a visitor that has nothing but a fallback walks in pre-order;
one that has nothing at all refuses the root. -/
theorem fallback_walksInPreorder :
    WalksInPreorder Expression.kind
        (fun {σ α} fallback => Expression.accept ({ fallback } : Expression.Visitor σ α)) ∧
      WalksInPreorder PlanNode.kind
        (fun {σ α} fallback => PlanNode.accept ({ fallback } : PlanNode.Visitor σ α)) ∧
      (∀ (σ α : Type) (e : Expression),
        e.accept ({} : Expression.Visitor σ α) = throw (.unsupported e.kind)) ∧
      ∀ (σ α : Type) (node : PlanNode),
        node.accept ({} : PlanNode.Visitor σ α) = throw (.unsupported node.kind) := by
  refine ⟨Expression.accept_fallback.walksInPreorder, PlanNode.accept_fallback.walksInPreorder,
    fun σ α e => ?_, fun σ α node => ?_⟩
  · exact Expression.accept_fallback _ e
  · exact PlanNode.accept_fallback _ node

end QueryScope
