import QueryScope.Number.Double

/-!
# Reading decimal numbers

A decimal literal is split into its sign, digits, fraction and exponent, and denotes the double
nearest to its value.
-/

namespace QueryScope

/-- The value of a character as a decimal digit. -/
def digitValue (c : Char) : Nat :=
  c.toNat - '0'.toNat

/-- The number that a list of decimal digits denotes. -/
def digitsValue (digits : List Char) : Nat :=
  digits.foldl (fun n c => 10 * n + digitValue c) 0

/-- The parts of a decimal literal, each a list of digits. -/
structure DecimalLiteral where
  /-- Whether a minus sign stands in front. -/
  negative : Bool := false
  /-- Digits before the point. -/
  whole : List Char := []
  /-- Digits after the point. -/
  fraction : List Char := []
  /-- Whether the exponent has a minus sign. -/
  exponentNegative : Bool := false
  /-- Digits of the exponent. -/
  exponent : List Char := []
deriving Repr

namespace DecimalLiteral

/-- The double nearest to the literal's value. -/
def toDouble (l : DecimalLiteral) : Double :=
  let shift : Int := digitsValue l.exponent
  let power := if l.exponentNegative then -shift else shift
  Double.ofDecimal l.negative (digitsValue (l.whole ++ l.fraction)) (power - l.fraction.length)

end DecimalLiteral

namespace Double

/-- Read an exponent mark with its digits, if there is one; nothing may follow. -/
def readExponent (l : DecimalLiteral) : List Char → Option DecimalLiteral
  | [] => some l
  | c :: rest =>
    if c = 'e' ∨ c = 'E' then
      let (negative, digits) := match rest with
        | '-' :: rest => (true, rest)
        | '+' :: rest => (false, rest)
        | rest => (false, rest)
      if digits ≠ [] ∧ digits.all Char.isDigit then
        some { l with exponentNegative := negative, exponent := digits }
      else none
    else none

/-- Read digits with at most one point among them and at least one digit, then an exponent. -/
def readUnsigned (negative : Bool) (text : List Char) : Option DecimalLiteral :=
  let whole := text.takeWhile Char.isDigit
  let rest := text.dropWhile Char.isDigit
  let (fraction, rest) := match rest with
    | '.' :: rest => (rest.takeWhile Char.isDigit, rest.dropWhile Char.isDigit)
    | rest => ([], rest)
  if whole = [] ∧ fraction = [] then none
  else readExponent { negative, whole, fraction } rest

/-- Read a number: an optional sign, then digits with an optional point and an optional exponent, or
one of the words for infinity and not-a-number in any case. -/
def ofText? (text : List Char) : Option Double :=
  let (negative, body) := match text with
    | '-' :: rest => (true, rest)
    | '+' :: rest => (false, rest)
    | rest => (false, rest)
  let word := body.map Char.toLower
  if word = "inf".toList ∨ word = "infinity".toList then some (.infinite negative)
  else if word = "nan".toList then some .nan
  else (readUnsigned negative body).map DecimalLiteral.toDouble

end Double

end QueryScope
