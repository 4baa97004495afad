import QueryScope.Number.Double

/-!
# JSON values

A number is an integer when it was written as one and fits 64 bits, signed or unsigned, and a double
otherwise. An object is a list of members; one that was read from text has its keys ascending and
distinct, one that was built has its members in the order in which they are written.
-/

namespace QueryScope

/-- An integer that fits 64 bits, signed or unsigned: from `-2 ^ 63` to below `2 ^ 64`. -/
structure Json.Integer where
  /-- The integer. -/
  val : Int
  /-- It is not below the signed range. -/
  lower : -9223372036854775808 ≤ val
  /-- It is not above the unsigned range. -/
  upper : val < 18446744073709551616
deriving DecidableEq

/-- A JSON number. -/
inductive Json.Number where
  /-- Written without point and exponent, and in range. -/
  | integer (n : Json.Integer)
  /-- Any other number. -/
  | float (d : Double)
deriving DecidableEq

/-- A JSON value. -/
inductive Json where
  /-- The literal `null`. -/
  | null
  /-- A truth value. -/
  | bool (b : Bool)
  /-- A number. -/
  | number (n : Json.Number)
  /-- A text. -/
  | string (s : String)
  /-- A list of values. -/
  | array (items : List Json)
  /-- A list of keyed values. -/
  | object (members : List (String × Json))

namespace Json

instance : Inhabited Json := ⟨.null⟩

/-- An integer as a number, when it is in range. -/
def Integer.ofInt? (n : Int) : Option Integer :=
  if h : -9223372036854775808 ≤ n ∧ n < 18446744073709551616 then some ⟨n, h.1, h.2⟩ else none

/-- The name of a value's type in messages. -/
def kind : Json → String
  | .null => "null"
  | .bool _ => "boolean"
  | .number (.float _) => "float"
  | .number (.integer _) => "integer"
  | .string _ => "string"
  | .array _ => "array"
  | .object _ => "object"

/-- Whether the value is `null`. -/
def isNull : Json → Bool
  | .null => true
  | _ => false

/-- The text that a value is. -/
def text? : Json → Option String
  | .string s => some s
  | _ => none

/-- The truth value that a value is. -/
def bool? : Json → Option Bool
  | .bool b => some b
  | _ => none

/-- The integer that a value is. -/
def integer? : Json → Option Int
  | .number (.integer n) => some n.val
  | _ => none

/-- The items of an array; any other value has none. -/
def items : Json → List Json
  | .array items => items
  | _ => []

/-- The value under a key among the members of an object. -/
def lookup (members : List (String × Json)) (key : String) : Option Json :=
  (members.find? (·.1 == key)).map (·.2)

/-- The value under a key, if the value is an object that has the key. -/
def member? (key : String) : Json → Option Json
  | .object members => lookup members key
  | _ => none

/-- Put a member into a list of members with ascending keys; a present key gets the new value. -/
def insertMember (key : String) (value : Json) : List (String × Json) → List (String × Json)
  | [] => [(key, value)]
  | (k, v) :: rest =>
    if key < k then (key, value) :: (k, v) :: rest
    else if key = k then (key, value) :: rest
    else (k, v) :: insertMember key value rest

/-- The object with these members, its keys ascending; of a repeated key the last value counts. -/
def ofMembers (members : List (String × Json)) : Json :=
  .object (members.foldl (fun sorted m => insertMember m.1 m.2 sorted) [])

/-! ## Numbers -/

/-- A signed 64-bit number. -/
def ofInt64 (n : Int64) : Json :=
  .number (.integer ⟨n.toInt, by have := n.le_toInt; omega, by have := n.toInt_lt; omega⟩)

/-- A signed 32-bit number. -/
def ofInt32 (n : Int32) : Json :=
  .number (.integer ⟨n.toInt, by have := n.le_toInt; omega, by have := n.toInt_lt; omega⟩)

/-- An unsigned 64-bit number. -/
def ofUInt64 (n : UInt64) : Json :=
  .number (.integer ⟨n.toNat, by omega, by have := n.toNat_lt; omega⟩)

/-- An unsigned 32-bit number. -/
def ofUInt32 (n : UInt32) : Json :=
  .number (.integer ⟨n.toNat, by omega, by have := n.toNat_lt; omega⟩)

/-- A double; the numbers that JSON cannot write become `null`. -/
def ofDouble (d : Double) : Json :=
  if d.isFinite then .number (.float d) else .null

/-- A list of texts. -/
def ofStrings (texts : List String) : Json :=
  .array (texts.map .string)

end Json

end QueryScope
