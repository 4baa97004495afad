import QueryScope.Enumeration
import QueryScope.Json.Basic

/-!
# Expressions

The SQL expressions inside plans. Every kind of node has a name, which is also the tag that it
carries in payloads.
-/

namespace QueryScope

/-- An SQL expression. -/
inductive Expression where
  /-- A name, unquoted. -/
  | identifier (value : String)
  /-- A symbol of the planner. -/
  | symbol (name : String)
  /-- An integer. -/
  | long (value : Int64)
  /-- A floating-point number. -/
  | double (value : Double)
  /-- A text. -/
  | string (value : String)
  /-- A truth value. -/
  | boolean (value : Bool)
  /-- The null value. -/
  | null
  /-- The placeholder of the parameter at a position, the first being 0. -/
  | parameter (position : UInt32)
  /-- A comparison. -/
  | comparison (operator : ComparisonOperator) (left right : Expression)
  /-- Two conditions joined. -/
  | logicalBinary (operator : LogicalOperator) (left right : Expression)
  /-- An operation on two numbers. -/
  | arithmeticBinary (operator : ArithmeticOperator) (left right : Expression)
  /-- A negation. -/
  | not (value : Expression)
  /-- A test for null. -/
  | isNull (value : Expression)
  /-- A test for a range, both ends included. -/
  | between (value min max : Expression)
  /-- A call, perhaps on the distinct arguments only. -/
  | functionCall (name : String) (arguments : List Expression) (distinct : Bool)
  /-- A conversion to a type; a safe one gives null where it fails. -/
  | cast (operand : Expression) (targetType : String) (safe : Bool)
  /-- A scalar subquery, whose body is kept as it stands. -/
  | subquery (query : Json)

namespace Expression

/-- The name of the kind of node. -/
def kind : Expression → String
  | .identifier .. => "identifier"
  | .symbol .. => "symbol"
  | .long .. => "long"
  | .double .. => "double"
  | .string .. => "string"
  | .boolean .. => "boolean"
  | .null => "null"
  | .parameter .. => "parameter"
  | .comparison .. => "comparison"
  | .logicalBinary .. => "logicalBinary"
  | .arithmeticBinary .. => "arithmeticBinary"
  | .not .. => "not"
  | .isNull .. => "isNull"
  | .between .. => "between"
  | .functionCall .. => "functionCall"
  | .cast .. => "cast"
  | .subquery .. => "subquery"

/-- The direct operands, left to right. -/
def children : Expression → List Expression
  | .comparison _ left right => [left, right]
  | .logicalBinary _ left right => [left, right]
  | .arithmeticBinary _ left right => [left, right]
  | .not value => [value]
  | .isNull value => [value]
  | .between value min max => [value, min, max]
  | .functionCall _ arguments _ => arguments
  | .cast operand _ _ => [operand]
  | .identifier _ | .symbol _ | .long _ | .double _ | .string _ | .boolean _ | .null
  | .parameter _ | .subquery _ => []

/-- The higher of two positions. -/
def higher : Option UInt32 → Option UInt32 → Option UInt32
  | none, b => b
  | a, none => a
  | some a, some b => some (max a b)

mutual

/-- The highest position of a placeholder, if there is a placeholder. -/
def maxParameter : Expression → Option UInt32
  | .parameter position => some position
  | .comparison _ left right => higher left.maxParameter right.maxParameter
  | .logicalBinary _ left right => higher left.maxParameter right.maxParameter
  | .arithmeticBinary _ left right => higher left.maxParameter right.maxParameter
  | .not value => value.maxParameter
  | .isNull value => value.maxParameter
  | .between value min max =>
    higher value.maxParameter (higher min.maxParameter max.maxParameter)
  | .functionCall _ arguments _ => maxParameters arguments
  | .cast operand _ _ => operand.maxParameter
  | .identifier _ | .symbol _ | .long _ | .double _ | .string _ | .boolean _ | .null
  | .subquery _ => none

/-- The highest position of a placeholder in several expressions. -/
def maxParameters : List Expression → Option UInt32
  | [] => none
  | e :: rest => higher e.maxParameter (maxParameters rest)

end

/-- The members of an object that stands for a node: its tag, then its fields. -/
def tagged (kind : String) (fields : List (String × Json)) : Json :=
  .object (("@type", .string kind) :: fields)

/-- The member of a flag, which is left out when the flag is not set. -/
def flag (key : String) (set : Bool) : List (String × Json) :=
  if set then [(key, .bool true)] else []

mutual

/-- The expression as JSON. -/
def encode : Expression → Json
  | .identifier value => tagged "identifier" [("value", .string value)]
  | .symbol name => tagged "symbol" [("name", .string name)]
  | .long value => tagged "long" [("value", .ofInt64 value)]
  | .double value => tagged "double" [("value", .ofDouble value)]
  | .string value => tagged "string" [("value", .string value)]
  | .boolean value => tagged "boolean" [("value", .bool value)]
  | .null => tagged "null" []
  | .parameter position => tagged "parameter" [("position", .ofUInt32 position)]
  | .comparison operator left right =>
    tagged "comparison" [("operator", .string (Named.name operator)), ("left", left.encode),
      ("right", right.encode)]
  | .logicalBinary operator left right =>
    tagged "logicalBinary" [("operator", .string (Named.name operator)), ("left", left.encode),
      ("right", right.encode)]
  | .arithmeticBinary operator left right =>
    tagged "arithmeticBinary" [("operator", .string (Named.name operator)), ("left", left.encode),
      ("right", right.encode)]
  | .not value => tagged "not" [("value", value.encode)]
  | .isNull value => tagged "isNull" [("value", value.encode)]
  | .between value min max =>
    tagged "between" [("value", value.encode), ("min", min.encode), ("max", max.encode)]
  | .functionCall name arguments distinct =>
    tagged "functionCall" ([("name", .string name), ("arguments", .array (encodeAll arguments))] ++
      flag "distinct" distinct)
  | .cast operand targetType safe =>
    tagged "cast" ([("expression", operand.encode), ("type", .string targetType)] ++
      flag "safe" safe)
  | .subquery query => tagged "subquery" [("query", query)]

/-- Several expressions as JSON. -/
def encodeAll : List Expression → List Json
  | [] => []
  | e :: rest => e.encode :: encodeAll rest

end

end Expression

end QueryScope
