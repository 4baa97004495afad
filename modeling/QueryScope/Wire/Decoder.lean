import QueryScope.Wire.Error

/-!
# Reading at a path that moves

While a payload is read, one path says where the value stands that is being read. It moves one step
in before a part is read and back afterwards, and it outlives an error.
-/

namespace QueryScope

/-- Reads at the current path, which it may move. An error does not put the path back. -/
abbrev Decoder := ExceptT DecodeError (StateM Path)

namespace Decoder

variable {α ε : Type}

/-- The outcome of reading from a path on, and the path at which reading ends. -/
def runAt (d : Decoder α) (p : Path) : Except DecodeError α × Path :=
  StateT.run (ExceptT.run d) p

/-- Fail with an error at the current path. -/
def fail (e : Path → DecodeError) : Decoder α := do
  throw (e (← get))

/-- Go on with what was accepted, or fail with the error of a refusal at the current path. -/
def accept (e : Path → ε → DecodeError) : Except ε α → Decoder α
  | .ok a => pure a
  | .error refusal => fail (e · refusal)

/-- Read a part: move one step in, read, and move back, whatever the outcome. -/
def inside (s : Path.Segment) (d : Decoder α) : Decoder α := ExceptT.mk do
  modify (·.child s)
  let outcome ← d.run
  modify (·.parent)
  return outcome

/-! ## Running -/

variable {β : Type} (d : Decoder α) (p : Path)

theorem runAt_pure (a : α) : (pure a : Decoder α).runAt p = (.ok a, p) := rfl

theorem runAt_fail (e : Path → DecodeError) : (fail e : Decoder α).runAt p = (.error (e p), p) :=
  rfl

theorem runAt_bind (f : α → Decoder β) :
    (d >>= f).runAt p = match d.runAt p with
      | (.ok a, q) => (f a).runAt q
      | (.error e, q) => (.error e, q) := by
  show ExceptT.bindCont f (d.runAt p).1 (d.runAt p).2 = _
  rcases d.runAt p with ⟨a | e, q⟩ <;> rfl

theorem runAt_map (f : α → β) :
    (f <$> d).runAt p = (f <$> (d.runAt p).1, (d.runAt p).2) := by
  show (d >>= fun a => pure (f a)).runAt p = _
  rw [runAt_bind]
  rcases d.runAt p with ⟨a | e, q⟩ <;> rfl

theorem runAt_accept (e : Path → ε → DecodeError) (x : Except ε α) :
    (accept e x).runAt p = (x.mapError (e p), p) := by
  cases x <;> rfl

theorem runAt_inside (s : Path.Segment) :
    (inside s d).runAt p = ((d.runAt (p.child s)).1, (d.runAt (p.child s)).2.parent) := rfl

theorem runAt_adapt (f : DecodeError → DecodeError) :
    Decoder.runAt (ExceptT.adapt f d) p = ((d.runAt p).1.mapError f, (d.runAt p).2) := rfl

end Decoder

end QueryScope
