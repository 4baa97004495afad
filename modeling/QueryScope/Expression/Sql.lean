import QueryScope.Expression.Basic
import QueryScope.Json.Parser
import QueryScope.Json.Printer
import QueryScope.Sql.Quoting
import QueryScope.Visit

/-!
# SQL text of expressions

Every operator stands in parentheses with its operands, so the text never hangs on precedence. With
a list of parameters each placeholder is replaced by the literal of its parameter, without one it
stays a question mark.
-/

namespace QueryScope

namespace Sql

/-- Doubles in SQL: positional from `10 ^ -4` to below `10 ^ 16`, always with a point, and elsewhere
with an exponent; a half goes up. -/
def floatText : FloatText where
  plain := some (-4, 16)
  keepsPoint := true
  signsExponent := false
  tie := .up

/-- A double as a literal. The numbers without digits are written as calls. -/
def doubleLiteral : Double → String
  | .nan => "nan()"
  | .infinite negative => if negative then "-infinity()" else "infinity()"
  | d => d.format floatText

/-- Texts with commas between them. -/
def commaSeparated (texts : List String) : String :=
  ", ".intercalate texts

mutual

/-- A JSON value as a literal; a value with an object in it has none. -/
def literal? : Json → Option String
  | .null => some "null"
  | .bool b => some (toString b)
  | .number n => some n.text
  | .string s => some (quoteString s)
  | .array items => (literals? items).map fun texts => s!"ARRAY[{commaSeparated texts}]"
  | .object _ => none

/-- Several JSON values as literals. -/
def literals? : List Json → Option (List String)
  | [] => some []
  | v :: rest =>
    match literal? v with
    | none => none
    | some text => (literals? rest).map (text :: ·)

end

/-- The value that a text gives as a parameter: what it is as JSON, or else the text itself. -/
def parameterOfText [Parser String Json] (text : String) : Json :=
  match (Parser.parse text : Except String Json) with
  | .ok v => v
  | .error _ => .string text

/-- The text of a placeholder. -/
def placeholder (parameters : Option (List Json)) (position : UInt32) : Except VisitError String :=
  match parameters with
  | none => .ok "?"
  | some values =>
    match values[position.toNat]? with
    | none => .error (.missingParameter position values.length)
    | some value =>
      match literal? value with
      | none => .error (.invalidParameter position)
      | some text => .ok text

/-- An operator between two operands. -/
def binary (operator left right : String) : String :=
  s!"({left} {operator} {right})"

/-- A negated operand. -/
def negation (value : String) : String :=
  s!"(NOT {value})"

/-- A test for null. -/
def nullTest (value : String) : String :=
  s!"({value} IS NULL)"

/-- A test for a range. -/
def range (value min max : String) : String :=
  s!"({value} BETWEEN {min} AND {max})"

/-- A call. -/
def call (name : String) (distinct : Bool) (arguments : List String) : String :=
  let quantifier := if distinct then "DISTINCT " else ""
  s!"{name}({quantifier}{commaSeparated arguments})"

/-- A conversion to a type. -/
def conversion (safe : Bool) (operand targetType : String) : String :=
  let function := if safe then "TRY_CAST" else "CAST"
  s!"{function}({operand} AS {targetType})"

end Sql

namespace Expression

mutual

/-- The SQL text of an expression. It fails at the first operand, left to right, that has none. -/
def toSql (parameters : Option (List Json)) : Expression → Except VisitError String
  | .identifier value => .ok (Sql.quoteIdentifier value)
  | .symbol name => .ok name
  | .long value => .ok (toString value)
  | .double value => .ok (Sql.doubleLiteral value)
  | .string value => .ok (Sql.quoteString value)
  | .boolean value => .ok (toString value)
  | .null => .ok "null"
  | .parameter position => Sql.placeholder parameters position
  | .comparison operator left right =>
    return Sql.binary operator.symbol (← left.toSql parameters) (← right.toSql parameters)
  | .logicalBinary operator left right =>
    return Sql.binary (Named.name operator) (← left.toSql parameters) (← right.toSql parameters)
  | .arithmeticBinary operator left right =>
    return Sql.binary operator.symbol (← left.toSql parameters) (← right.toSql parameters)
  | .not value => return Sql.negation (← value.toSql parameters)
  | .isNull value => return Sql.nullTest (← value.toSql parameters)
  | .between value min max =>
    return Sql.range (← value.toSql parameters) (← min.toSql parameters) (← max.toSql parameters)
  | .functionCall name arguments distinct =>
    return Sql.call name distinct (← allToSql parameters arguments)
  | .cast operand targetType safe =>
    return Sql.conversion safe (← operand.toSql parameters) targetType
  | .subquery _ => .error (.unsupported "subquery")

/-- The SQL texts of several expressions. -/
def allToSql (parameters : Option (List Json)) : List Expression → Except VisitError (List String)
  | [] => .ok []
  | e :: rest => return (← e.toSql parameters) :: (← allToSql parameters rest)

end

end Expression

end QueryScope
