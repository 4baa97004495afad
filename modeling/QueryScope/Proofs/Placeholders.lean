import Mathlib.Order.Bounds.Basic
import QueryScope.Proofs.Rendering
import QueryScope.Summary
import QueryScope.Wire.Payload

/-!
# The number of placeholders

The summary of an expression shows how many parameters its placeholders need, which is one more than
their highest position. The positions are 32-bit numbers, and so is what is shown: for the highest
of all positions there is no such number, and the summary is given up.
-/

namespace QueryScope

namespace Expression

variable {e : Expression} {n : Nat} {highest : UInt32}

/-- A list of so many parameters has one for every placeholder in the tree. -/
def Covers (n : Nat) (e : Expression) : Prop :=
  ∀ position, .parameter position ∈ preorder [e] → position.toNat < n

theorem parameter_mem_leaves_iff {position : UInt32} :
    .parameter position ∈ leaves e ↔ .parameter position ∈ preorder [e] := by
  rw [leaves, List.mem_filter]
  exact and_iff_left rfl

theorem covers_iff : Covers n e ↔ Below n e.maxParameter := by
  rw [below_maxParameter_iff]
  exact forall_congr' fun position => imp_congr_left parameter_mem_leaves_iff.symm

theorem maxParameter_eq_none_iff :
    e.maxParameter = none ↔ ∀ position, .parameter position ∉ preorder [e] := by
  have hzero : Below 0 e.maxParameter ↔ e.maxParameter = none := by
    cases e.maxParameter <;> simp [Below]
  rw [← hzero, ← covers_iff]
  exact forall_congr' fun position => imp_congr_right fun _ => iff_false_intro (Nat.not_lt_zero _)

/-- One more than the highest position is the least number of parameters. -/
theorem isLeast_covers (h : e.maxParameter = some highest) :
    IsLeast {n | Covers n e} (highest.toNat + 1) := by
  have hcovers (n : Nat) : Covers n e ↔ highest.toNat < n := by
    rw [covers_iff, h]
    simp [Below]
  exact ⟨(hcovers _).mpr (Nat.lt_succ_self _), fun n hn => (hcovers n).mp hn⟩

/-- What the summary of an expression says about its placeholders. -/
structure CountsPlaceholders (e : Expression) : Prop where
  /-- Nothing, if there are none. -/
  lines_without : (∀ position, .parameter position ∉ preorder [e]) →
    e.summaryLines = some [s!"{e.kind} expression: {e.listingText}"]
  /-- Otherwise the least number of parameters that covers them, if this is a 32-bit number. If it
  is not, and this is so only when the last of all positions is among them, there is no summary. -/
  lines_with : ∀ position, .parameter position ∈ preorder [e] →
    ∃ n, IsLeast {n | Covers n e} n ∧
      (n < 2 ^ 32 → e.summaryLines =
        some [s!"{e.kind} expression: {e.listingText}", s!"  placeholders: {n}"]) ∧
      (¬n < 2 ^ 32 → e.summaryLines = none) ∧
      (n < 2 ^ 32 ↔ .parameter 4294967295 ∉ preorder [e])

theorem lines_eq_of_none (h : e.maxParameter = none) :
    e.summaryLines = some [s!"{e.kind} expression: {e.listingText}"] := by
  simp only [summaryLines, h]

theorem next_eq_of_lt (h : highest.toNat + 1 < UInt32.size) :
    (Checked.next highest).map toString = some (toString (highest.toNat + 1)) := by
  have hnext : (highest + 1).toNat = highest.toNat + 1 := by
    rw [UInt32.toNat_add]
    exact Nat.mod_eq_of_lt h
  rw [Checked.next, if_pos h, Option.map_some, ← hnext]
  rfl

theorem lines_eq_of_some (h : e.maxParameter = some highest) :
    e.summaryLines = (Checked.next highest).map fun count =>
      [s!"{e.kind} expression: {e.listingText}", s!"  placeholders: {count}"] := by
  simp only [summaryLines, h, Option.map_eq_bind]
  rfl

theorem lines_eq_of_lt (h : e.maxParameter = some highest) (hlt : highest.toNat + 1 < UInt32.size) :
    e.summaryLines = some [s!"{e.kind} expression: {e.listingText}",
      s!"  placeholders: {highest.toNat + 1}"] := by
  have hcount := next_eq_of_lt hlt
  rw [lines_eq_of_some h]
  obtain ⟨count, hnext, htext⟩ := Option.map_eq_some_iff.mp hcount
  rw [hnext, Option.map_some, htext]

theorem lines_eq_of_not_lt (h : e.maxParameter = some highest)
    (hlt : ¬highest.toNat + 1 < UInt32.size) : e.summaryLines = none := by
  rw [lines_eq_of_some h, Checked.next, if_neg hlt, Option.map_none]

/-- The least number of parameters has 32 bits unless there is a placeholder for the last of all
positions. -/
theorem lt_size_iff (hn : IsLeast {n | Covers n e} n) :
    n < UInt32.size ↔ .parameter 4294967295 ∉ preorder [e] := by
  have hlast : (4294967295 : UInt32).toNat = UInt32.size - 1 := rfl
  have hsize : 0 < UInt32.size := by decide
  constructor
  · intro hlt hmem
    have hcovered := hn.1 4294967295 hmem
    omega
  · intro hno
    have hcovers : Covers (UInt32.size - 1) e := by
      intro position hmem
      have hlt := position.toNat_lt_size
      have hne : position.toNat ≠ UInt32.size - 1 := fun heq =>
        hno ((UInt32.toNat_inj.mp (heq.trans hlast.symm)) ▸ hmem)
      omega
    have hle := hn.2 hcovers
    omega

end Expression

/-- A summary counts the placeholders up to the last position but one. -/
theorem summary_countsPlaceholders (e : Expression) : e.CountsPlaceholders where
  lines_without h := Expression.lines_eq_of_none (Expression.maxParameter_eq_none_iff.mpr h)
  lines_with position hmem := by
    cases h : e.maxParameter with
    | none => exact absurd hmem (Expression.maxParameter_eq_none_iff.mp h position)
    | some highest =>
      have hleast := Expression.isLeast_covers h
      exact ⟨highest.toNat + 1, hleast, Expression.lines_eq_of_lt h,
        Expression.lines_eq_of_not_lt h, Expression.lt_size_iff hleast⟩

/-- A placeholder for the last position, as JSON. -/
def Expression.lastPayload : Json :=
  .object [("@type", .string "parameter"), ("position", .ofUInt32 4294967295)]

/-- Its list of parameters has to have 4294967296 items, and there is no summary that says so. -/
theorem summary_lastPlaceholder :
    Payload.decode Expression Expression.lastPayload = .ok (.parameter 4294967295) ∧
      IsLeast {n | Expression.Covers n (.parameter 4294967295)} 4294967296 ∧
        (Expression.parameter 4294967295).summaryLines = none := by
  have hleast : IsLeast {n | Expression.Covers n (.parameter 4294967295)}
      ((4294967295 : UInt32).toNat + 1) := Expression.isLeast_covers rfl
  exact ⟨rfl, hleast, Expression.lines_eq_of_not_lt rfl (by decide)⟩

end QueryScope
