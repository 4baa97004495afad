import QueryScope.Expression.Basic
import QueryScope.Visit

/-!
# Visitors of expressions

A visitor has a hook for each kind of expression. A hook that is not given falls back to one that is
told the kind and handed the operands; unless that one is given too, it refuses.
-/

namespace QueryScope.Expression

/-- An operand with the walk over it. -/
abbrev Operand (σ α : Type) := Branch Expression σ α

/-- What to do at each kind of expression. -/
structure Visitor (σ α : Type) where
  /-- Any kind without a hook of its own, with its operands. -/
  fallback : String → List (Operand σ α) → Visit σ α := fun kind _ => throw (.unsupported kind)
  /-- A name. -/
  identifier : String → Visit σ α := fun _ => fallback "identifier" []
  /-- A symbol. -/
  symbol : String → Visit σ α := fun _ => fallback "symbol" []
  /-- An integer. -/
  long : Int64 → Visit σ α := fun _ => fallback "long" []
  /-- A floating-point number. -/
  double : Double → Visit σ α := fun _ => fallback "double" []
  /-- A text. -/
  string : String → Visit σ α := fun _ => fallback "string" []
  /-- A truth value. -/
  boolean : Bool → Visit σ α := fun _ => fallback "boolean" []
  /-- The null value. -/
  null : Visit σ α := fallback "null" []
  /-- A placeholder. -/
  parameter : UInt32 → Visit σ α := fun _ => fallback "parameter" []
  /-- A comparison. -/
  comparison : ComparisonOperator → (left right : Operand σ α) → Visit σ α :=
    fun _ left right => fallback "comparison" [left, right]
  /-- Two conditions joined. -/
  logicalBinary : LogicalOperator → (left right : Operand σ α) → Visit σ α :=
    fun _ left right => fallback "logicalBinary" [left, right]
  /-- An operation on two numbers. -/
  arithmeticBinary : ArithmeticOperator → (left right : Operand σ α) → Visit σ α :=
    fun _ left right => fallback "arithmeticBinary" [left, right]
  /-- A negation. -/
  not : Operand σ α → Visit σ α := fun value => fallback "not" [value]
  /-- A test for null. -/
  isNull : Operand σ α → Visit σ α := fun value => fallback "isNull" [value]
  /-- A test for a range. -/
  between : (value min max : Operand σ α) → Visit σ α :=
    fun value min max => fallback "between" [value, min, max]
  /-- A call. -/
  functionCall : String → List (Operand σ α) → (distinct : Bool) → Visit σ α :=
    fun _ arguments _ => fallback "functionCall" arguments
  /-- A conversion to a type. -/
  cast : Operand σ α → (targetType : String) → (safe : Bool) → Visit σ α :=
    fun operand _ _ => fallback "cast" [operand]
  /-- A subquery, whose body is not looked into. -/
  subquery : Json → Visit σ α := fun _ => fallback "subquery" []

variable {σ α : Type}

mutual

/-- Visit an expression: its kind's hook decides whether and when its operands are visited. -/
def accept (v : Visitor σ α) : Expression → Visit σ α
  | .identifier value => v.identifier value
  | .symbol name => v.symbol name
  | .long value => v.long value
  | .double value => v.double value
  | .string value => v.string value
  | .boolean value => v.boolean value
  | .null => v.null
  | .parameter position => v.parameter position
  | .comparison operator left right =>
    v.comparison operator ⟨left, accept v left⟩ ⟨right, accept v right⟩
  | .logicalBinary operator left right =>
    v.logicalBinary operator ⟨left, accept v left⟩ ⟨right, accept v right⟩
  | .arithmeticBinary operator left right =>
    v.arithmeticBinary operator ⟨left, accept v left⟩ ⟨right, accept v right⟩
  | .not value => v.not ⟨value, accept v value⟩
  | .isNull value => v.isNull ⟨value, accept v value⟩
  | .between value min max =>
    v.between ⟨value, accept v value⟩ ⟨min, accept v min⟩ ⟨max, accept v max⟩
  | .functionCall name arguments distinct => v.functionCall name (operands v arguments) distinct
  | .cast operand targetType safe => v.cast ⟨operand, accept v operand⟩ targetType safe
  | .subquery query => v.subquery query

/-- Several expressions, each with the walk over it. -/
def operands (v : Visitor σ α) : List Expression → List (Operand σ α)
  | [] => []
  | e :: rest => ⟨e, accept v e⟩ :: operands v rest

end

/-- Records every node that is reached, each before its operands. -/
def Visitor.tracing : Visitor (List (String × Nat)) Unit where
  fallback := Branch.trace

end QueryScope.Expression
