import QueryScope.Json.Basic
import QueryScope.Number.Decimal

/-!
# Writing JSON

The compact form has no blanks at all; the pretty form has one member or item per line, indented by
two spaces a level, and writes empty containers as the compact form does.
-/

namespace QueryScope.Json

/-- Doubles in JSON text: positional from `10 ^ -5` to below `10 ^ 16`, always with a point, and
elsewhere with a signed exponent; a half goes to the even digit. -/
def floatText : FloatText where
  plain := some (-5, 16)
  keepsPoint := true
  signsExponent := true
  tie := .toEven

/-- The text of a number. -/
def Number.text : Number → String
  | .integer n => toString n.val
  | .float d => d.format floatText

/-- One character of a JSON string: quotes, backslashes and control characters are escaped. -/
def escapeChar (c : Char) : List Char :=
  match c with
  | '"' => ['\\', '"']
  | '\\' => ['\\', '\\']
  | '\n' => ['\\', 'n']
  | '\r' => ['\\', 'r']
  | '\t' => ['\\', 't']
  | '\x08' => ['\\', 'b']
  | '\x0c' => ['\\', 'f']
  | c =>
    if c.toNat < 0x20 then
      ['\\', 'u', '0', '0', Nat.digitChar (c.toNat / 16), Nat.digitChar (c.toNat % 16)]
    else [c]

/-- A JSON string. -/
def stringText (s : String) : String :=
  String.ofList ('"' :: (s.toList.flatMap escapeChar ++ ['"']))

mutual

/-- The compact text of a value. -/
def compress : Json → String
  | .null => "null"
  | .bool b => toString b
  | .number n => n.text
  | .string s => stringText s
  | .array items => "[" ++ ",".intercalate (compressItems items) ++ "]"
  | .object members => "\x7b" ++ ",".intercalate (compressMembers members) ++ "\x7d"

/-- The compact texts of the items of an array. -/
def compressItems : List Json → List String
  | [] => []
  | v :: rest => compress v :: compressItems rest

/-- The compact texts of the members of an object. -/
def compressMembers : List (String × Json) → List String
  | [] => []
  | (k, v) :: rest => (stringText k ++ ":" ++ compress v) :: compressMembers rest

end

/-- A line break and the indentation of a level. -/
def newline (level : Nat) : String :=
  "\n" ++ String.ofList (List.replicate (2 * level) ' ')

/-- The parts of a container, each on a line of its own one level below `level`. -/
def block (opening closing : String) (level : Nat) : List String → String
  | [] => opening ++ closing
  | parts =>
    let inner := newline (level + 1)
    opening ++ inner ++ ("," ++ inner).intercalate parts ++ newline level ++ closing

mutual

/-- The pretty text of a value that stands at a level of nesting. -/
def prettyAt (level : Nat) : Json → String
  | .array items => block "[" "]" level (prettyItems (level + 1) items)
  | .object members => block "\x7b" "\x7d" level (prettyMembers (level + 1) members)
  | .null => "null"
  | .bool b => toString b
  | .number n => n.text
  | .string s => stringText s

/-- The pretty texts of the items of an array. -/
def prettyItems (level : Nat) : List Json → List String
  | [] => []
  | v :: rest => prettyAt level v :: prettyItems level rest

/-- The pretty texts of the members of an object. -/
def prettyMembers (level : Nat) : List (String × Json) → List String
  | [] => []
  | (k, v) :: rest =>
    (stringText k ++ ": " ++ prettyAt level v) :: prettyMembers level rest

end

/-- The pretty text of a value. -/
def pretty (v : Json) : String :=
  prettyAt 0 v

end QueryScope.Json
