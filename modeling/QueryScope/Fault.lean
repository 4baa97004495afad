import QueryScope.Number.Decimal
import QueryScope.Text.Quoted

/-!
# Faults of single fields

Why a field's value breaks the rules of its field, as data, with the wording in one place.
-/

namespace QueryScope

/-- A range of integers that a field is narrowed to. -/
inductive IntegerRange where
  /-- Signed, 64 bits. -/
  | i64
  /-- Signed, 32 bits. -/
  | i32
  /-- Unsigned, 32 bits. -/
  | u32
deriving DecidableEq, Repr

/-- The name of a range in messages. -/
def IntegerRange.name : IntegerRange → String
  | .i64 => "i64"
  | .i32 => "i32"
  | .u32 => "u32"

/-- A rule of one particular field that its value breaks. -/
inductive Violation where
  /-- A count is above the count of another field. -/
  | exceeds (value : UInt64) (boundField : String) (bound : UInt64)
  /-- An identifier has a character that it may not have. -/
  | unexpectedCharacter (c : Char)
  /-- A part of an identifier is not a decimal number. -/
  | notOrdinal (part : String)
  /-- A stage identifier has no dot. -/
  | noStagePart (text : String)
  /-- A task identifier does not have three or four parts. -/
  | notTaskId (text : String)
  /-- A transaction identifier is not a universally unique identifier; the parser says why. -/
  | notUuid (why : String)
  /-- A measure starts with a minus sign. -/
  | negativeMeasure (text : String)
  /-- A measure has no unit. -/
  | noUnit (text : String)
  /-- A measure does not start with a number. -/
  | noMagnitude (text : String)
  /-- A measure is infinite, below zero or not a number. -/
  | improperMagnitude (magnitude : Double) (noun : String)
  /-- A task stands in a stage that it does not belong to. -/
  | strayTask (task stage : String)
  /-- The output stage belongs to another query. -/
  | foreignStage (stage : String)
deriving DecidableEq

/-- The wording of a violation. -/
def Violation.message : Violation → String
  | .exceeds value boundField bound => s!"{value} exceeds {boundField} ({bound})"
  | .unexpectedCharacter c => s!"unexpected character {Text.quoteChar c}"
  | .notOrdinal part => s!"expected a decimal ordinal, found {Text.quote part}"
  | .noStagePart text => s!"{Text.quote text} has no stage part"
  | .notTaskId text => s!"{Text.quote text} is not <query>.<stage>.<task>[.<attempt>]"
  | .notUuid why => why
  | .negativeMeasure text => s!"{Text.quote text} is negative"
  | .noUnit text => s!"{Text.quote text} has no unit"
  | .noMagnitude text => s!"{Text.quote text} has no magnitude"
  | .improperMagnitude magnitude noun =>
    s!"{magnitude.format FloatText.bare} is not a non-negative finite {noun}"
  | .strayTask task stage => s!"task {task} does not belong to stage {stage}"
  | .foreignStage stage => s!"stage {stage} belongs to another query"

/-- Why a field's value is refused. -/
inductive Reason where
  /-- The field is required and absent or null. -/
  | missing
  /-- A count is negative. -/
  | negative (value : Int64)
  /-- A number does not fit the range of its field; the number is kept as text. -/
  | outOfRange (value : String) (range : IntegerRange)
  /-- A text that may not be empty is empty. -/
  | empty
  /-- A name is not one of the names that the field may have. -/
  | unknownName (name : String)
  /-- A rule of this particular field is broken. -/
  | invalid (violation : Violation)
deriving DecidableEq

/-- The wording of a reason. -/
def Reason.message : Reason → String
  | .missing => "required field is missing"
  | .negative value => s!"must be non-negative, got {value}"
  | .outOfRange value range => s!"{value} is out of range for {range.name}"
  | .empty => "must not be empty"
  | .unknownName name => s!"unknown name {Text.quote name}"
  | .invalid violation => violation.message

/-- A field with the reason why its value is refused. -/
structure FieldFault where
  /-- The field's name in payloads. -/
  field : String
  /-- Why its value is refused. -/
  reason : Reason
deriving DecidableEq

/-- The wording of a field's fault. -/
def FieldFault.message (fault : FieldFault) : String :=
  s!"field `{fault.field}`: {fault.reason.message}"

/-- The name under which a value stands that is not in any field. -/
def rootField : String := "$"

end QueryScope
