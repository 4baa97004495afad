import QueryScope.Wire.Error
import QueryScope.Wire.Interface

/-!
# Descriptions of payloads

A `Codec` says how a value of some type is read from JSON, as data: what the value consists of, and
for records and interfaces only their names. The `Body` of a record or of a variant describes the
object behind the name. Reading itself is defined once, for all descriptions.
-/

namespace QueryScope

/-- Why a scalar refuses a value. -/
inductive Refusal where
  /-- The value has the wrong type. -/
  | malformed (malformation : Malformation)
  /-- The value breaks the rules of its field. -/
  | invalid (reason : Reason)
deriving DecidableEq

/-- How a value of a type is read. -/
inductive Codec : Type → Type 1 where
  /-- From a value that is not looked into. -/
  | scalar {α : Type} (read : Json → Except Refusal α) : Codec α
  /-- From `null`, or as the description says. -/
  | nullable {α : Type} (c : Codec α) : Codec (Option α)
  /-- Item by item from an array. -/
  | list {α : Type} (c : Codec α) : Codec (List α)
  /-- Member by member from an object whose keys are data. -/
  | keyed {κ α : Type} (key : String → Except Reason κ) (c : Codec α) : Codec (List (κ × α))
  /-- As a record. -/
  | record (r : Record) : Codec r.Value
  /-- As one of the variants of an interface. -/
  | interface (i : Interface) : Codec i.Value

/-- The fields that are read from an object, in order, and what they are put into. -/
inductive Fields : Type → Type 1 where
  /-- No field. -/
  | pure {α : Type} (a : α) : Fields α
  /-- A field that may be neither absent nor null, behind other fields. -/
  | required {α β : Type} (fields : Fields (β → α)) (name : String) (c : Codec β) : Fields α
  /-- A field without a value when it is absent or null. -/
  | optional {α β : Type} (fields : Fields (Option β → α)) (name : String) (c : Codec β) : Fields α
  /-- A field with a default when it is absent or null. -/
  | defaulted {α β : Type} (fields : Fields (β → α)) (name : String) (c : Codec β) (default : β) :
      Fields α
  /-- A field that is kept as it stands, null included; its absence is a malformation of the
  object. -/
  | verbatim {α : Type} (fields : Fields (Json → α)) (name : String) (absent : Malformation) :
      Fields α

/-- Where an object is read. -/
structure Place where
  /-- The path of the object. -/
  path : Path
  /-- The number of interfaces that have variants. -/
  interfaces : Nat

/-- How the object of a record or of a variant is read. -/
inductive Body : Type → Type 1 where
  /-- From its fields. -/
  | record {α : Type} (fields : Fields α) : Body α
  /-- From its fields, which have to pass a check together. -/
  | checked {α : Type} (fields : Fields (Except FieldFault α)) : Body α
  /-- In one of two ways, as a key is present or not. -/
  | whenPresent {α : Type} (key : String) (present absent : Body α) : Body α
  /-- From the object without members only; any other is of no variant of the interface. -/
  | memberless {α : Type} (interface : String) (a : α) : Body α
  /-- In a way that a client defines. -/
  | custom {α : Type} (read : Place → List (String × Json) → Except DecodeFault α) : Body α

namespace Codec

/-- From a map with texts as keys. -/
def map {α : Type} (c : Codec α) : Codec (List (String × α)) :=
  .keyed .ok c

/-! ## Scalars -/

/-- A value of another type than expected. -/
def mismatch {α : Type} (expected : String) (v : Json) : Except Refusal α :=
  .error (.malformed (.mismatch expected v.kind))

/-- Any value, as it stands. -/
def json : Codec Json :=
  .scalar .ok

/-- A truth value. -/
def bool : Codec Bool :=
  .scalar fun
    | .bool b => .ok b
    | v => mismatch "boolean" v

/-- A text. -/
def readString : Json → Except Refusal String
  | .string s => .ok s
  | v => mismatch "string" v

/-- A text. -/
def string : Codec String :=
  .scalar readString

/-- A number; integers are rounded to the nearest double. -/
def double : Codec Double :=
  .scalar fun
    | .number (.float d) => .ok d
    | .number (.integer n) => .ok (Double.ofInt n.val)
    | v => mismatch "number" v

/-- A signed 64-bit integer. -/
def readInt64 : Json → Except Refusal Int64
  | .number (.integer n) =>
    if n.val ≤ Int64.maxValue.toInt then .ok (Int64.ofInt n.val)
    else .error (.invalid (.outOfRange (toString n.val) .i64))
  | .number (.float d) => .error (.malformed (.floatForInteger d))
  | v => mismatch "integer" v

/-- A signed 32-bit integer: a 64-bit one that fits. -/
def readInt32 (v : Json) : Except Refusal Int32 := do
  let wide ← readInt64 v
  if Int32.minValue.toInt ≤ wide.toInt ∧ wide.toInt ≤ Int32.maxValue.toInt then .ok wide.toInt32
  else .error (.invalid (.outOfRange (toString wide) .i32))

/-- An unsigned 64-bit integer. What is not one is read as a signed integer, and then is
negative. -/
def readUInt64 (v : Json) : Except Refusal UInt64 :=
  let unsigned? := match v with
    | .number (.integer n) => if 0 ≤ n.val then some (UInt64.ofNat n.val.toNat) else none
    | _ => none
  match unsigned? with
  | some n => .ok n
  | none => do
    let signed ← readInt64 v
    .error (.invalid (.negative signed))

/-- An unsigned 32-bit integer: a 64-bit one that fits. -/
def readUInt32 (v : Json) : Except Refusal UInt32 := do
  let wide ← readUInt64 v
  if wide.toNat < UInt32.size then .ok wide.toUInt32
  else .error (.invalid (.outOfRange (toString wide) .u32))

/-- A signed 64-bit integer. -/
def int64 : Codec Int64 := .scalar readInt64

/-- A signed 32-bit integer. -/
def int32 : Codec Int32 := .scalar readInt32

/-- An unsigned 64-bit integer. -/
def uint64 : Codec UInt64 := .scalar readUInt64

/-- An unsigned 32-bit integer. -/
def uint32 : Codec UInt32 := .scalar readUInt32

/-- A text that is read further; what is wrong with the text is wrong with the field. -/
def text {α : Type} (parse : String → Except FieldFault α) : Codec α :=
  .scalar fun v => do
    let s ← readString v
    (parse s).mapError (.invalid ·.reason)

/-- A plain identifier. -/
def nameId (role : NameRole) : Codec (NameId role) := text (NameId.parse role)

/-- The identifier of a query. -/
def queryId : Codec QueryId := text QueryId.parse

/-- The identifier of a stage. -/
def stageId : Codec StageId := text StageId.parse

/-- The identifier of a task. -/
def taskId : Codec TaskId := text TaskId.parse

/-- The identifier of a transaction. -/
def transactionId : Codec TransactionId := text TransactionId.parse

/-- A value of an enumeration, by name. -/
def named (α : Type) [Named α] : Codec α := text (Named.parse α)

/-- A size or duration. -/
def measure {υ : Type} [UnitSystem υ] : Codec (Measure υ) := text Measure.parse

/-- A list of texts. -/
def strings : Codec (List String) := .list string

end Codec

end QueryScope
