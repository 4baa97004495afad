import QueryScope.Fault

/-!
# Narrowing of counters

Payloads carry counters as signed 64-bit numbers. A value that is built from counters and one that
is read from a payload pass the same checks.
-/

namespace QueryScope

/-- A count that may not be negative. -/
def nonNegative (field : String) (value : Int64) : Except FieldFault UInt64 :=
  if value < 0 then .error ⟨field, .negative value⟩ else .ok value.toUInt64

/-- A count that may not be negative and has to fit 32 bits. -/
def nonNegative32 (field : String) (value : Int64) : Except FieldFault UInt32 := do
  let wide ← nonNegative field value
  if wide.toNat < UInt32.size then .ok wide.toUInt32
  else .error ⟨field, .outOfRange (toString wide) .u32⟩

/-- A text that may not be empty. -/
def nonEmpty (field text : String) : Except FieldFault String :=
  if text = "" then .error ⟨field, .empty⟩ else .ok text

/-- A count that may not be above the count of another field. -/
def atMost (field : String) (value : UInt64) (boundField : String) (bound : UInt64) :
    Except FieldFault Unit :=
  if bound < value then .error ⟨field, .invalid (.exceeds value boundField bound)⟩ else .ok ()

end QueryScope
