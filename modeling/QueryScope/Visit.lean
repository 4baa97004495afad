/-!
# Visits

Walking a tree with a state, where a kind of node can be beyond what the walk supports. The state
outlives a failure, so what was seen before it stays known.
-/

namespace QueryScope

/-- Why a walk over a tree ends early. -/
inductive VisitError where
  /-- The walk has nothing for this kind of node. -/
  | unsupported (kind : String)
  /-- A placeholder's position is past the end of the parameters. -/
  | missingParameter (position : UInt32) (available : Nat)
  /-- A parameter has no literal form. -/
  | invalidParameter (position : UInt32)
deriving DecidableEq

/-- The wording of the error. -/
def VisitError.message : VisitError → String
  | .unsupported kind => s!"unsupported node kind `{kind}`"
  | .missingParameter position available =>
    s!"parameter {position} requested but only {available} supplied"
  | .invalidParameter position => s!"parameter {position} cannot be rendered as a literal"

/-- A walk with a state. -/
abbrev Visit (σ α : Type) := ExceptT VisitError (StateM σ) α

/-- The result of a walk and the state after it. -/
def Visit.runFrom {σ α : Type} (visit : Visit σ α) (start : σ) : Except VisitError α × σ :=
  StateT.run (ExceptT.run visit) start

/-- A node below the one that is visited, with the walk that goes on there. -/
structure Branch (ν σ α : Type) where
  /-- The node. -/
  node : ν
  /-- The walk over the node and all below it. -/
  visit : Visit σ α

/-- Go on at each of the nodes below, in order. -/
def Branch.visitAll {ν σ : Type} (branches : List (Branch ν σ Unit)) : Visit σ Unit :=
  branches.forM (·.visit)

/-- Record the kind of a node and the number of nodes below it, then go on at each of these. -/
def Branch.trace {ν : Type} (kind : String)
    (branches : List (Branch ν (List (String × Nat)) Unit)) : Visit (List (String × Nat)) Unit := do
  modify (· ++ [(kind, branches.length)])
  Branch.visitAll branches

end QueryScope
