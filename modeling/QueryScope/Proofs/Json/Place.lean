import QueryScope.Proofs.Json.WellFormed
import QueryScope.Wire.Path

/-!
# Places in a value

A place is the list of the steps that lead from the root of a value into it. A key is left out of
some objects of a value by choosing their places; there, every member of an object is taken for a
field.
-/

namespace QueryScope.Json

open QueryScope.Path (Segment)

/-- The value that one step leads to: fields and keys are members of objects, positions are those of
items in arrays. -/
def step? : Segment → Json → Option Json
  | .field name, .object members => lookup members name
  | .key name, .object members => lookup members name
  | .index n, .array items => items[n]?
  | _, _ => none

/-- The value that steps lead to. -/
def follow : List Segment → Json → Option Json
  | [], v => some v
  | s :: rest, v => (v.step? s).bind (follow rest)

/-! ## Leaving out a key -/

/-- A choice of places in a value. -/
abbrev Places := List Segment → Bool

/-- The chosen places behind one step. -/
def Places.behind (chosen : Places) (s : Segment) : Places := fun place => chosen (s :: place)

mutual

/-- The value without the members under `key` in the objects at the chosen places. -/
def without (key : String) (chosen : Places) : Json → Json
  | .array items => .array (itemsWithout key chosen 0 items)
  | .object members => .object (membersWithout key chosen members)
  | .null => .null
  | .bool b => .bool b
  | .number n => .number n
  | .string s => .string s

/-- The items of an array from a position on, each without its chosen members. -/
def itemsWithout (key : String) (chosen : Places) (n : Nat) : List Json → List Json
  | [] => []
  | v :: rest => v.without key (chosen.behind (.index n)) :: itemsWithout key chosen (n + 1) rest

/-- The members of an object, without the member under `key` if the object is chosen. -/
def membersWithout (key : String) (chosen : Places) :
    List (String × Json) → List (String × Json)
  | [] => []
  | (name, v) :: rest =>
    if chosen [] = true ∧ name = key then membersWithout key chosen rest
    else (name, v.without key (chosen.behind (.field name))) :: membersWithout key chosen rest

end

variable {key : String} {chosen : Places} {v : Json}

/-- No place is chosen. -/
def Places.IsEmpty (chosen : Places) : Prop :=
  ∀ place, chosen place = false

theorem Places.IsEmpty.behind (h : chosen.IsEmpty) (s : Segment) : (chosen.behind s).IsEmpty :=
  fun place => h (s :: place)

theorem without_of_isEmpty (h : chosen.IsEmpty) : v.without key chosen = v := by
  induction v using induction_on generalizing chosen with
  | step v items members =>
    cases v with
    | array vs =>
      have hall (n : Nat) (ws : List Json) (hws : ∀ w ∈ ws, w ∈ vs) :
          itemsWithout key chosen n ws = ws := by
        induction ws generalizing n with
        | nil => rfl
        | cons w rest ih =>
          obtain ⟨hw, hrest⟩ := List.forall_mem_cons.mp hws
          rw [itemsWithout, items w hw (h.behind _), ih _ hrest]
      rw [without, hall 0 vs fun _ => id]
    | object ms =>
      have hall (es : List (String × Json)) (hes : ∀ e ∈ es, e ∈ ms) :
          membersWithout key chosen es = es := by
        induction es with
        | nil => rfl
        | cons e rest ih =>
          obtain ⟨he, hrest⟩ := List.forall_mem_cons.mp hes
          rw [membersWithout, if_neg (by simp [h []]), members e he (h.behind _), ih hrest]
      rw [without, hall ms fun _ => id]
    | _ => rw [without]

theorem membersWithout_of_ne {members : List (String × Json)}
    (h : ∀ m ∈ members, m.1 ≠ key) : membersWithout key chosen members =
      members.map fun m => (m.1, m.2.without key (chosen.behind (.field m.1))) := by
  induction members with
  | nil => rfl
  | cons m rest ih =>
    obtain ⟨hm, hrest⟩ := List.forall_mem_cons.mp h
    rw [membersWithout, if_neg fun hn => hm hn.2, ih hrest, List.map_cons]

end QueryScope.Json
