import QueryScope.Fault

/-!
# Paths into payloads

Where a value stands in a payload: the fields, positions and keys that lead to it from the root.
-/

namespace QueryScope

/-- One step into a payload. -/
inductive Path.Segment where
  /-- Into a field of a record. -/
  | field (name : String)
  /-- To a position of a list, the first being 0. -/
  | index (n : Nat)
  /-- To a key of a map. -/
  | key (text : String)
deriving DecidableEq, Repr

/-- The steps from the root of a payload to a value. -/
structure Path where
  /-- The steps, the first one first. -/
  segments : List Path.Segment
deriving DecidableEq, Repr

namespace Path

/-- The root of the payload. -/
def root : Path := ⟨[]⟩

/-- One step further. -/
def child (p : Path) (s : Segment) : Path :=
  ⟨p.segments ++ [s]⟩

/-- One step back; the root stays where it is. -/
def parent (p : Path) : Path :=
  ⟨p.segments.dropLast⟩

theorem parent_child (p : Path) (s : Segment) : (p.child s).parent = p := by
  simp [child, parent]

/-- The steps of a path with those of another behind them. -/
def append (p q : Path) : Path :=
  ⟨p.segments ++ q.segments⟩

/-- Whether the path leads nowhere further than the root. -/
def isRoot (p : Path) : Bool :=
  p.segments.isEmpty

/-- The name of a field step. -/
def Segment.fieldName? : Segment → Option String
  | .field name => some name
  | _ => none

/-- The innermost field of the path, or the name that stands for the root. -/
def currentField (p : Path) : String :=
  (p.segments.reverse.findSome? Segment.fieldName?).getD rootField

/-- The text of one step; a field that is not the first step has a dot in front. -/
def Segment.text (isFirst : Bool) : Segment → String
  | .field name => if isFirst then name else "." ++ name
  | .index n => s!"[{n}]"
  | .key text => "[" ++ Text.quote text ++ "]"

/-- The text of a path. -/
def text (p : Path) : String :=
  match p.segments with
  | [] => rootField
  | first :: rest => String.join (first.text true :: rest.map (Segment.text false))

end Path

end QueryScope
