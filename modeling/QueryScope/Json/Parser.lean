import QueryScope.Json.Basic
import QueryScope.Number.Reading
import QueryScope.Parser

/-!
# Reading JSON

A reader takes the characters that are left and returns what it read with the characters after it,
or nothing when they do not start with it. Containers nest to a fixed depth. A number that no double
can approximate is an error, and so is an escape that names half of a surrogate pair. `limit` is
above the length of the whole text, and so above that of every string in it.
-/

namespace QueryScope.Json

/-- How deep arrays and objects may nest. -/
def maxDepth : Nat := 127

/-- Blanks between the tokens. -/
def isBlank (c : Char) : Bool :=
  c = ' ' || c = '\t' || c = '\n' || c = '\r'

/-- Drop the blanks in front. -/
def skipBlanks (text : List Char) : List Char :=
  text.dropWhile isBlank

/-- Drop `word` from the front. -/
def skipWord? : (word text : List Char) → Option (List Char)
  | [], text => some text
  | _ :: _, [] => none
  | w :: word, c :: text => if w = c then skipWord? word text else none

/-! ## Strings -/

/-- The value of a hexadecimal digit. -/
def hexValue? (c : Char) : Option Nat :=
  if '0' ≤ c ∧ c ≤ '9' then some (c.toNat - '0'.toNat)
  else if 'a' ≤ c ∧ c ≤ 'f' then some (c.toNat - 'a'.toNat + 10)
  else if 'A' ≤ c ∧ c ≤ 'F' then some (c.toNat - 'A'.toNat + 10)
  else none

/-- Read four hexadecimal digits. -/
def hexUnit? : List Char → Option (Nat × List Char)
  | a :: b :: c :: d :: rest => do
    let a ← hexValue? a
    let b ← hexValue? b
    let c ← hexValue? c
    let d ← hexValue? d
    some (((a * 16 + b) * 16 + c) * 16 + d, rest)
  | _ => none

/-- Read what follows the backslash and the letter `u`: one code point, or the two halves of a
surrogate pair. -/
def unicodeEscape? (text : List Char) : Option (Char × List Char) := do
  let (unit, rest) ← hexUnit? text
  if 0xDC00 ≤ unit ∧ unit ≤ 0xDFFF then none
  else if 0xD800 ≤ unit ∧ unit ≤ 0xDBFF then
    let rest ← skipWord? ['\\', 'u'] rest
    let (low, rest) ← hexUnit? rest
    if 0xDC00 ≤ low ∧ low ≤ 0xDFFF then
      some (Char.ofNat (0x10000 + (unit - 0xD800) * 0x400 + (low - 0xDC00)), rest)
    else none
  else some (Char.ofNat unit, rest)

/-- Read what follows a backslash. -/
def escape? : List Char → Option (Char × List Char)
  | '"' :: rest => some ('"', rest)
  | '\\' :: rest => some ('\\', rest)
  | '/' :: rest => some ('/', rest)
  | 'b' :: rest => some ('\x08', rest)
  | 'f' :: rest => some ('\x0c', rest)
  | 'n' :: rest => some ('\n', rest)
  | 'r' :: rest => some ('\r', rest)
  | 't' :: rest => some ('\t', rest)
  | 'u' :: rest => unicodeEscape? rest
  | _ => none

/-- Read a string after its opening quote; `read` holds the characters so far, last first. -/
def stringBody? (read : List Char) : (fuel : Nat) → List Char → Option (String × List Char)
  | 0, _ => none
  | _ + 1, [] => none
  | fuel + 1, c :: rest =>
    if c = '"' then some (String.ofList read.reverse, rest)
    else if c = '\\' then
      match escape? rest with
      | some (c, rest) => stringBody? (c :: read) fuel rest
      | none => none
    else if c.toNat < 0x20 then none
    else stringBody? (c :: read) fuel rest

/-- Read a string of fewer than `limit` characters. -/
def string? (limit : Nat) : List Char → Option (String × List Char)
  | '"' :: rest => stringBody? [] limit rest
  | _ => none

/-! ## Numbers -/

/-- A number as it is written. -/
structure NumberText where
  /-- The parts of the number. -/
  literal : DecimalLiteral
  /-- Whether it has neither point nor exponent. -/
  isWhole : Bool

/-- Read the digits in front. -/
def digits (text : List Char) : List Char × List Char :=
  (text.takeWhile Char.isDigit, text.dropWhile Char.isDigit)

/-- Read an exponent, if there is one. -/
def exponent? (n : NumberText) : List Char → Option (NumberText × List Char)
  | [] => some (n, [])
  | c :: rest =>
    if c = 'e' ∨ c = 'E' then
      let (negative, rest) := match rest with
        | '-' :: rest => (true, rest)
        | '+' :: rest => (false, rest)
        | rest => (false, rest)
      let (exponent, rest) := digits rest
      if exponent = [] then none
      else
        some (⟨{ n.literal with exponentNegative := negative, exponent }, false⟩, rest)
    else some (n, c :: rest)

/-- Read a fraction, if there is one. -/
def fraction? (n : NumberText) : List Char → Option (NumberText × List Char)
  | '.' :: rest =>
    let (fraction, rest) := digits rest
    if fraction = [] then none else some (⟨{ n.literal with fraction }, false⟩, rest)
  | rest => some (n, rest)

/-- Read a number: no leading zeros, and digits on both sides of a point. -/
def numberText? (text : List Char) : Option (NumberText × List Char) := do
  let (negative, text) := match text with
    | '-' :: rest => (true, rest)
    | rest => (false, rest)
  let (whole, rest) ← match text with
    | '0' :: rest => some (['0'], rest)
    | text => some (digits text)
  if whole = [] then none
  else if whole = ['0'] ∧ (rest.head?.any Char.isDigit) then none
  else
    let (n, rest) ← fraction? ⟨{ negative, whole }, true⟩ rest
    exponent? n rest

/-- Put digits behind those of a number as long as it keeps to 64 bits; the digits from the first
one on that does not fit are left. -/
def absorb (significand : Nat) : List Char → Nat × List Char
  | [] => (significand, [])
  | c :: rest =>
    let next := 10 * significand + digitValue c
    if next < UInt64.size then absorb next rest else (significand, c :: rest)

/-- A double times a power of ten. Powers are taken from a table that ends at `10 ^ 308`; a double
that is to become smaller than by the last of them is divided by it as often as need be. -/
def shifted (d : Double) (exponent : Int) : Double :=
  if exponent < -308 then
    if d.isZero then d else shifted (d.div (power 308)) (exponent + 308)
  else if exponent < 0 then d.div (power (-exponent))
  else if exponent ≤ 308 then d.mul (power exponent)
  else if d.isZero then d
  else .infinite false
termination_by (-exponent).toNat
decreasing_by omega
where
  /-- An entry of the table. -/
  power (exponent : Int) : Double := .ofDecimal false 1 exponent

/-- The double that a number text stands for: the digits that fit 64 bits, times a power of ten.
Each of these steps is rounded, so it may be a neighbour of the nearest double. -/
def NumberText.toDouble (n : NumberText) : Double :=
  let (significand, left) := absorb 0 n.literal.whole
  let (significand, ignored) := absorb significand n.literal.fraction
  let exponent : Int := digitsValue n.literal.exponent
  let exponent := if n.literal.exponentNegative then -exponent else exponent
  shifted (.ofRatio n.literal.negative significand 1)
    (exponent + left.length + ignored.length - n.literal.fraction.length)

/-- The number that a number text denotes: an integer when it is written as one and fits, except
that the negative zero is a double; nothing when it is beyond the doubles. -/
def NumberText.value? (n : NumberText) : Option Number :=
  let magnitude := digitsValue n.literal.whole
  let signed : Int := if n.literal.negative then -magnitude else magnitude
  let asInteger := if n.isWhole ∧ ¬(n.literal.negative ∧ magnitude = 0) then
      Integer.ofInt? signed else none
  match asInteger with
  | some n => some (.integer n)
  | none =>
    let d := n.toDouble
    if d.isFinite then some (.float d) else none

/-! ## Values -/

mutual

/-- Read a value, blanks in front allowed. -/
def value? (limit : Nat) : (fuel depth : Nat) → List Char → Option (Json × List Char)
  | 0, _, _ => none
  | fuel + 1, depth, text =>
    match skipBlanks text with
    | [] => none
    | '"' :: rest => do
      let (s, rest) ← string? limit ('"' :: rest)
      some (.string s, rest)
    | '[' :: rest =>
      match depth with
      | 0 => none
      | depth + 1 =>
        match skipBlanks rest with
        | ']' :: rest => some (.array [], rest)
        | rest => items? limit fuel depth [] rest
    | '\x7b' :: rest =>
      match depth with
      | 0 => none
      | depth + 1 =>
        match skipBlanks rest with
        | '\x7d' :: rest => some (.object [], rest)
        | rest => members? limit fuel depth [] rest
    | 'n' :: rest => (skipWord? "ull".toList rest).map (.null, ·)
    | 't' :: rest => (skipWord? "rue".toList rest).map (.bool true, ·)
    | 'f' :: rest => (skipWord? "alse".toList rest).map (.bool false, ·)
    | rest => do
      let (n, rest) ← numberText? rest
      let n ← n.value?
      some (.number n, rest)

/-- Read the items of an array from one item on; `read` holds those before it, last first. -/
def items? (limit : Nat) :
    (fuel depth : Nat) → (read : List Json) → List Char → Option (Json × List Char)
  | 0, _, _, _ => none
  | fuel + 1, depth, read, text =>
    match value? limit fuel depth text with
    | none => none
    | some (item, rest) =>
      match skipBlanks rest with
      | ',' :: rest => items? limit fuel depth (item :: read) rest
      | ']' :: rest => some (.array (item :: read).reverse, rest)
      | _ => none

/-- Read the members of an object from one member on; `read` holds those before it, last first. -/
def members? (limit : Nat) :
    (fuel depth : Nat) → (read : List (String × Json)) → List Char → Option (Json × List Char)
  | 0, _, _, _ => none
  | fuel + 1, depth, read, text =>
    match string? limit (skipBlanks text) with
    | none => none
    | some (key, rest) =>
      match skipBlanks rest with
      | ':' :: rest =>
        match value? limit fuel depth rest with
        | none => none
        | some (value, rest) =>
          match skipBlanks rest with
          | ',' :: rest => members? limit fuel depth ((key, value) :: read) rest
          | '\x7d' :: rest => some (ofMembers ((key, value) :: read).reverse, rest)
          | _ => none
      | _ => none

end

/-- Read a text that holds one value and nothing else but blanks. -/
def parse? (text : String) : Option Json :=
  let chars := text.toList
  let limit := chars.length + 1
  match value? limit limit maxDepth chars with
  | some (v, rest) => if skipBlanks rest = [] then some v else none
  | none => none

/-- Read bytes that hold one value; bytes that are no UTF-8 text hold none. -/
def parseBytes? (bytes : ByteArray) : Option Json :=
  (String.fromUTF8? bytes).bind parse?

/-- What the parser says of any other text. -/
def refusal : String := "the text is not JSON"

instance : Parser String Json := .ofOption refusal parse?

instance : Parser ByteArray Json := .ofOption refusal parseBytes?

end QueryScope.Json
