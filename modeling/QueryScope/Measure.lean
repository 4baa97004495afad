import QueryScope.Fault
import QueryScope.Number.Reading
import QueryScope.Text.Blank

/-!
# Sizes and durations

A measure is a magnitude with a unit, written without a blank between them (`1.50MB`, `12ms`). A
magnitude without a fraction is written without places, any other with two.
-/

namespace QueryScope

/-- The units that a kind of measure is written in. -/
class UnitSystem (υ : Type) where
  /-- Every unit, the smallest first. -/
  units : List υ
  /-- The text behind the magnitude. -/
  suffix : υ → String
  /-- The field that a refused measure is reported under. -/
  field : String
  /-- What the measure is, in messages. -/
  noun : String

/-- A magnitude in a unit. -/
structure Measure (υ : Type) where
  /-- How many units. -/
  magnitude : Double
  /-- The unit. -/
  unit : υ
deriving DecidableEq

namespace Measure

variable {υ : Type} [UnitSystem υ]

/-- A measure of a magnitude, which has to be finite and not below zero. -/
def make (magnitude : Double) (unit : υ) : Except FieldFault (Measure υ) :=
  if magnitude.isFinite && !magnitude.isBelowZero then .ok ⟨magnitude, unit⟩
  else
    .error ⟨UnitSystem.field υ, .invalid (.improperMagnitude magnitude (UnitSystem.noun υ))⟩

/-- The characters of magnitudes. -/
def isMagnitudeChar (c : Char) : Bool :=
  c.isDigit || c == '.'

/-- Read a measure: the magnitude reaches to the first character that is neither a digit nor a
point, and the unit follows after blanks. Blanks around the whole do not count. -/
def parse (text : String) : Except FieldFault (Measure υ) := do
  let chars := Text.trim text.toList
  let refuse {α : Type} (violation : String → Violation) : Except FieldFault α :=
    .error ⟨UnitSystem.field υ, .invalid (violation (String.ofList chars))⟩
  if chars.head? = some '-' then refuse .negativeMeasure
  else
    let number := chars.takeWhile isMagnitudeChar
    let rest := chars.dropWhile isMagnitudeChar
    if rest = [] then refuse .noUnit
    else match Double.ofText? number with
      | none => refuse .noMagnitude
      | some magnitude =>
        let suffix := String.ofList (Text.trimStart rest)
        match (UnitSystem.units : List υ).find? (fun u => UnitSystem.suffix u == suffix) with
        | none => .error ⟨UnitSystem.field υ, .unknownName suffix⟩
        | some unit => make magnitude unit

/-- The text of a measure. -/
def text (m : Measure υ) : String :=
  m.magnitude.toFixed (if m.magnitude.isIntegral then 0 else 2) ++ UnitSystem.suffix m.unit

end Measure

/-! ## Sizes -/

/-- A unit of data sizes. -/
inductive DataUnit where
  /-- One byte. -/
  | byte
  /-- `2 ^ 10` bytes. -/
  | kilobyte
  /-- `2 ^ 20` bytes. -/
  | megabyte
  /-- `2 ^ 30` bytes. -/
  | gigabyte
  /-- `2 ^ 40` bytes. -/
  | terabyte
  /-- `2 ^ 50` bytes. -/
  | petabyte
deriving DecidableEq, Repr

instance : UnitSystem DataUnit where
  units := [.byte, .kilobyte, .megabyte, .gigabyte, .terabyte, .petabyte]
  suffix
    | .byte => "B"
    | .kilobyte => "kB"
    | .megabyte => "MB"
    | .gigabyte => "GB"
    | .terabyte => "TB"
    | .petabyte => "PB"
  field := "dataSize"
  noun := "size"

/-- The number of bytes in a unit. -/
def DataUnit.factor : DataUnit → Nat
  | .byte => 1
  | .kilobyte => 1 <<< 10
  | .megabyte => 1 <<< 20
  | .gigabyte => 1 <<< 30
  | .terabyte => 1 <<< 40
  | .petabyte => 1 <<< 50

/-- A quantity of data. -/
abbrev DataSize := Measure DataUnit

namespace DataSize

/-- A number of bytes. -/
def ofBytes (bytes : UInt64) : DataSize :=
  ⟨Double.ofNat bytes.toNat, .byte⟩

/-- The number of bytes, rounded to the nearest. -/
def toBytes (size : DataSize) : UInt64 :=
  (size.magnitude.mul (Double.ofNat size.unit.factor)).toUInt64

end DataSize

/-! ## Durations -/

/-- A unit of durations. -/
inductive TimeUnit where
  /-- Nanoseconds. -/
  | nanos
  /-- Microseconds. -/
  | micros
  /-- Milliseconds. -/
  | millis
  /-- Seconds. -/
  | seconds
  /-- Minutes. -/
  | minutes
  /-- Hours. -/
  | hours
  /-- Days. -/
  | days
deriving DecidableEq, Repr

instance : UnitSystem TimeUnit where
  units := [.nanos, .micros, .millis, .seconds, .minutes, .hours, .days]
  suffix
    | .nanos => "ns"
    | .micros => "us"
    | .millis => "ms"
    | .seconds => "s"
    | .minutes => "m"
    | .hours => "h"
    | .days => "d"
  field := "duration"
  noun := "duration"

/-- The number of milliseconds in a unit. -/
def TimeUnit.millisPerUnit : TimeUnit → Double
  | .nanos => Double.ofDecimal false 1 (-6)
  | .micros => Double.ofDecimal false 1 (-3)
  | .millis => Double.ofNat 1
  | .seconds => Double.ofNat 1000
  | .minutes => Double.ofNat 60000
  | .hours => Double.ofNat 3600000
  | .days => Double.ofNat 86400000

/-- A span of time. -/
abbrev Duration := Measure TimeUnit

namespace Duration

/-- The length in milliseconds. -/
def toMillis (d : Duration) : Double :=
  d.magnitude.mul d.unit.millisPerUnit

/-- Whole seconds and the nanoseconds after them, if the seconds fit 64 bits. The length in seconds
is rounded to the nearest nanosecond, a half to the even one. -/
def toSeconds? (d : Duration) : Option (UInt64 × Nat) :=
  match d.toMillis.div (Double.ofNat 1000) with
  | .finite _ mantissa exponent _ =>
    let (num, den) := Double.ratio mantissa exponent
    let nanos := roundDiv .toEven (num * 1000000000) den
    let seconds := nanos / 1000000000
    if seconds < UInt64.size then some (UInt64.ofNat seconds, nanos % 1000000000) else none
  | _ => none

end Duration

end QueryScope
