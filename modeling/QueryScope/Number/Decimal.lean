import QueryScope.Number.Double

/-!
# Decimal text of doubles

Two ways of writing a finite double in decimal digits: the fewest digits that read back as the same
double, the nearest of these if there are several, and a fixed number of places of its exact value.
A `FloatText` says how the fewest digits are laid out.
-/

namespace QueryScope

/-- The number `digits · 10 ^ exponent`. -/
structure Decimal where
  /-- The significant digits, as one number. -/
  digits : Nat
  /-- The power of ten of the last digit. -/
  exponent : Int
deriving DecidableEq, Repr

namespace Decimal

/-- Drop trailing zeros of the digits; `fuel` bounds their number. -/
def trim (d : Decimal) : (fuel : Nat) → Decimal
  | 0 => d
  | fuel + 1 =>
    if d.digits ≠ 0 ∧ d.digits % 10 = 0 then trim ⟨d.digits / 10, d.exponent + 1⟩ fuel else d

/-- Numerator and denominator of `num / den` divided by `10 ^ exponent`. -/
def scaleDown (num den : Nat) (exponent : Int) : Nat × Nat :=
  match exponent with
  | .ofNat k => (num, den * Nat.pow 10 k)
  | .negSucc k => (num * Nat.pow 10 (k + 1), den)

/-- The exponent of the largest power of ten not above `num / den`. The digit counts of the two
numbers give it up to one. -/
def floorLog10 (num den : Nat) : Int :=
  let guess : Int := ((Nat.repr num).length : Int) - ((Nat.repr den).length : Int)
  let (n, d) := scaleDown num den guess
  if d ≤ n then guess else guess - 1

/-- The decimals that read back as the double with this mantissa and exponent: all between the
half-way points to its two neighbours, which themselves count exactly when the mantissa is even.
Both ends are given over `4 · 2 ^ (-exponent)`. -/
structure Interval where
  /-- Lower end. -/
  low : Nat
  /-- The number itself. -/
  value : Nat
  /-- Upper end. -/
  high : Nat
  /-- Whether the ends belong to it. -/
  closed : Bool
deriving Repr

/-- The interval of a positive double. Below a power of two the neighbours are closer. -/
def Interval.of (mantissa : Nat) (exponent : Int) : Interval where
  low := if mantissa = fullMantissa ∧ -1074 < exponent then 4 * mantissa - 1 else 4 * mantissa - 2
  value := 4 * mantissa
  high := 4 * mantissa + 2
  closed := mantissa % 2 = 0

/-- Whether `num / den`, in the interval's unit, lies in the interval. -/
def Interval.holds (i : Interval) (num den : Nat) : Bool :=
  if i.closed then i.low * den ≤ num && num ≤ i.high * den
  else i.low * den < num && num < i.high * den

/-- The point of the grid `10 ^ power` that the interval holds and that is nearest to its value, if
there is one. If the grid has a point in the interval at all, one of the two around the value is in
it. `unit` is the fraction that the interval counts. -/
def Interval.onGrid (i : Interval) (tie : Tie) (unit : Nat × Nat) (power : Int) : Option Nat :=
  let (gridNum, gridDen) : Nat × Nat := match power with
    | .ofNat k => (Nat.pow 10 k * unit.2, unit.1)
    | .negSucc k => (unit.2, unit.1 * Nat.pow 10 (k + 1))
  let below := i.value * gridDen / gridNum
  let holdsPoint (point : Nat) := i.holds (point * gridNum) gridDen
  match holdsPoint below, holdsPoint (below + 1) with
  | true, true => some (roundDiv tie (i.value * gridDen) gridNum)
  | true, false => some below
  | false, true => some (below + 1)
  | false, false => none

/-- The first grid, from `digits` digits on, that has a point in the interval. -/
def Interval.shortest (i : Interval) (tie : Tie) (unit : Nat × Nat) (top : Int) (digits : Nat) :
    (fuel : Nat) → Decimal
  | 0 => ⟨0, 0⟩
  | fuel + 1 =>
    let power := top - (digits : Int) + 1
    match i.onGrid tie unit power with
    | some point => ⟨point, power⟩
    | none => i.shortest tie unit top (digits + 1) fuel

/-- The fewest digits that read back as a positive double; seventeen always suffice. -/
def shortest (tie : Tie) (mantissa : Nat) (exponent : Int) : Decimal :=
  let i := Interval.of mantissa exponent
  let (num, den) := Double.ratio mantissa exponent
  let unit : Nat × Nat := match exponent - 2 with
    | .ofNat k => (1 <<< k, 1)
    | .negSucc k => (1, 1 <<< (k + 1))
  (i.shortest tie unit (floorLog10 num den) 1 18).trim 18

end Decimal

/-- How the fewest digits of a double are laid out. -/
structure FloatText where
  /-- Powers of ten whose numbers are written without an exponent, from the first to below the
  second; without a range, all are. -/
  plain : Option (Int × Int)
  /-- Whether an integral number written without exponent ends in `.0`. -/
  keepsPoint : Bool
  /-- Whether a positive exponent has a sign. -/
  signsExponent : Bool
  /-- Which of two equally near decimals is written. -/
  tie : Tie
deriving Repr

namespace FloatText

/-- Positional at any size, with a point only in front of a fraction; a half goes up. -/
def bare : FloatText where
  plain := none
  keepsPoint := false
  signsExponent := false
  tie := .up

/-- The digits of a positive decimal with the point in its place. -/
def positional (style : FloatText) (d : Decimal) : String :=
  let digits := Nat.repr d.digits
  match d.exponent with
  | .ofNat k =>
    digits ++ String.ofList (List.replicate k '0') ++ (if style.keepsPoint then ".0" else "")
  | .negSucc k =>
    let places := k + 1
    let chars := digits.toList
    let padded := List.replicate (places + 1 - chars.length) '0' ++ chars
    let whole := padded.take (padded.length - places)
    let fraction := padded.drop (padded.length - places)
    String.ofList whole ++ "." ++ String.ofList fraction

/-- The digits of a positive decimal with one digit before the point, and the exponent. -/
def scientific (style : FloatText) (d : Decimal) : String :=
  let chars := (Nat.repr d.digits).toList
  let power := d.exponent + (chars.length : Int) - 1
  let mantissa := match chars with
    | [] => "0"
    | [c] => String.ofList [c]
    | c :: rest => String.ofList (c :: '.' :: rest)
  let sign := if 0 ≤ power ∧ style.signsExponent then "+" else ""
  mantissa ++ "e" ++ sign ++ toString power

/-- The text of a finite double. -/
def finite (style : FloatText) (negative : Bool) (mantissa : Nat) (exponent : Int) : String :=
  let sign := if negative then "-" else ""
  if mantissa = 0 then sign ++ (if style.keepsPoint then "0.0" else "0")
  else
    let d := Decimal.shortest style.tie mantissa exponent
    let power := d.exponent + ((Nat.repr d.digits).length : Int) - 1
    let isPlain := match style.plain with
      | none => true
      | some (low, high) => low ≤ power && power < high
    sign ++ (if isPlain then style.positional d else style.scientific d)

end FloatText

namespace Double

/-- The text of a double in a layout; the numbers without digits have words. -/
def format (style : FloatText) : Double → String
  | .nan => "NaN"
  | .infinite negative => if negative then "-inf" else "inf"
  | .finite negative mantissa exponent _ => style.finite negative mantissa exponent

/-- The exact value with a fixed number of places; a half goes to the even last digit. -/
def toFixed (places : Nat) : Double → String
  | .nan => "NaN"
  | .infinite negative => if negative then "-inf" else "inf"
  | .finite negative mantissa exponent _ =>
    let (num, den) := ratio mantissa exponent
    let digits := roundDiv .toEven (num * Nat.pow 10 places) den
    let whole := Nat.repr (digits / Nat.pow 10 places)
    let fraction := (Nat.repr (digits % Nat.pow 10 places)).toList
    let padded := List.replicate (places - fraction.length) '0' ++ fraction
    (if negative then "-" else "") ++ whole ++
      (if places = 0 then "" else "." ++ String.ofList padded)

end Double

end QueryScope
