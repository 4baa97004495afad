/-!
# Double-precision numbers

A double is not-a-number, an infinity, or a signed integer mantissa scaled by a power of two. The
finite form is canonical, so two doubles are equal exactly when they have the same sign and the
same value, with the two zeros kept apart. Every operation computes the exact result on natural
numbers and rounds it once, to the nearest double with ties to the even mantissa.
-/

namespace QueryScope

/-- Where a number exactly half way between two candidates goes. -/
inductive Tie where
  /-- To the candidate that is even. -/
  | toEven
  /-- To the larger candidate. -/
  | up
deriving DecidableEq, Repr

/-- The integer nearest to `num / den`. -/
def roundDiv (tie : Tie) (num den : Nat) : Nat :=
  let below := num / den
  let rest := 2 * (num % den)
  if rest < den then below
  else if den < rest then below + 1
  else match tie with
    | .toEven => below + below % 2
    | .up => below + 1

/-- `2 ^ 52`, the least mantissa that has all its bits. -/
def fullMantissa : Nat := 4503599627370496

/-- A mantissa and exponent in the one form that stands for their value: a full mantissa, or a
smaller one at the least exponent. -/
def CanonicalForm (mantissa : Nat) (exponent : Int) : Prop :=
  (exponent = -1074 ∧ mantissa < 2 * fullMantissa) ∨
    (-1074 < exponent ∧ exponent ≤ 971 ∧ fullMantissa ≤ mantissa ∧ mantissa < 2 * fullMantissa)

instance (mantissa : Nat) (exponent : Int) : Decidable (CanonicalForm mantissa exponent) :=
  inferInstanceAs (Decidable (_ ∨ _))

/-- A double-precision number. -/
inductive Double where
  /-- Not a number. -/
  | nan
  /-- An infinity. -/
  | infinite (negative : Bool)
  /-- The value `±mantissa · 2 ^ exponent`. -/
  | finite (negative : Bool) (mantissa : Nat) (exponent : Int)
      (canonical : CanonicalForm mantissa exponent)
deriving DecidableEq

namespace Double

/-- The zero of the given sign. -/
def zero (negative : Bool) : Double :=
  .finite negative 0 (-1074) (by decide)

instance : Inhabited Double := ⟨zero false⟩

/-- The finite double with this mantissa and exponent, or an infinity when there is none. -/
def pack (negative : Bool) (mantissa : Nat) (exponent : Int) : Double :=
  if h : CanonicalForm mantissa exponent then .finite negative mantissa exponent h
  else .infinite negative

/-- Numerator and denominator of `num / den` divided by `2 ^ exponent`. -/
def scaleDown (num den : Nat) (exponent : Int) : Nat × Nat :=
  match exponent with
  | .ofNat k => (num, den <<< k)
  | .negSucc k => (num <<< (k + 1), den)

/-- The exponent of the largest power of two not above `num / den`. -/
def floorLog2 (num den : Nat) : Int :=
  let guess : Int := (Nat.log2 num : Int) - (Nat.log2 den : Int)
  let (n, d) := scaleDown num den guess
  if d ≤ n then guess else guess - 1

/-- The double nearest to `±num / den`; past the largest finite double it is an infinity. -/
def ofRatio (negative : Bool) (num den : Nat) : Double :=
  if num = 0 then zero negative
  else
    let exponent := max (floorLog2 num den - 52) (-1074)
    let (n, d) := scaleDown num den exponent
    let mantissa := roundDiv .toEven n d
    if mantissa = 2 * fullMantissa then pack negative fullMantissa (exponent + 1)
    else pack negative mantissa exponent

/-- The double nearest to `±mantissa · 2 ^ exponent`. -/
def ofScaled (negative : Bool) (mantissa : Nat) (exponent : Int) : Double :=
  match exponent with
  | .ofNat k => ofRatio negative (mantissa <<< k) 1
  | .negSucc k => ofRatio negative mantissa (1 <<< (k + 1))

/-- The double nearest to a natural number. -/
def ofNat (n : Nat) : Double :=
  ofRatio false n 1

/-- The double nearest to an integer. -/
def ofInt (n : Int) : Double :=
  ofRatio (n < 0) n.natAbs 1

/-- The double nearest to `±mantissa · 10 ^ exponent`. Exponents far outside the range of doubles
are answered without computing the power. -/
def ofDecimal (negative : Bool) (mantissa : Nat) (exponent : Int) : Double :=
  if mantissa = 0 then zero negative
  else if 400 < exponent then .infinite negative
  else if exponent + Nat.log2 mantissa + 1 < -400 then zero negative
  else match exponent with
    | .ofNat k => ofRatio negative (mantissa * Nat.pow 10 k) 1
    | .negSucc k => ofRatio negative mantissa (Nat.pow 10 (k + 1))

/-- Neither an infinity nor not-a-number. -/
def isFinite : Double → Bool
  | .finite .. => true
  | _ => false

/-- One of the two zeros. -/
def isZero : Double → Bool
  | .finite _ mantissa _ _ => mantissa == 0
  | _ => false

/-- Below zero; the negative zero is not. -/
def isBelowZero : Double → Bool
  | .infinite negative => negative
  | .finite negative mantissa _ _ => negative && mantissa != 0
  | .nan => false

/-- A finite number without a fractional part. -/
def isIntegral : Double → Bool
  | .finite _ mantissa exponent _ =>
    match exponent with
    | .ofNat _ => true
    | .negSucc k => mantissa % (1 <<< (k + 1)) == 0
  | _ => false

/-- The number without its sign. -/
def abs : Double → Double
  | .nan => .nan
  | .infinite _ => .infinite false
  | .finite _ mantissa exponent h => .finite false mantissa exponent h

/-- The product, rounded once. -/
def mul : Double → Double → Double
  | .nan, _ => .nan
  | _, .nan => .nan
  | .infinite s, .infinite t => .infinite (s != t)
  | .infinite s, .finite t m _ _ => if m = 0 then .nan else .infinite (s != t)
  | .finite s m _ _, .infinite t => if m = 0 then .nan else .infinite (s != t)
  | .finite s m q _, .finite t n r _ => ofScaled (s != t) (m * n) (q + r)

/-- The quotient, rounded once. -/
def div : Double → Double → Double
  | .nan, _ => .nan
  | _, .nan => .nan
  | .infinite _, .infinite _ => .nan
  | .infinite s, .finite t _ _ _ => .infinite (s != t)
  | .finite s _ _ _, .infinite t => zero (s != t)
  | .finite s m q _, .finite t n r _ =>
    if n = 0 then (if m = 0 then .nan else .infinite (s != t))
    else match q - r with
      | .ofNat k => ofRatio (s != t) (m <<< k) n
      | .negSucc k => ofRatio (s != t) m (n <<< (k + 1))

/-- The signed integer that a mantissa at `exponent` stands for in units of `2 ^ unit`, for a unit
that is not larger. -/
def inUnits (negative : Bool) (mantissa : Nat) (exponent unit : Int) : Int :=
  let scaled : Nat := mantissa <<< (exponent - unit).toNat
  if negative then -(scaled : Int) else scaled

/-- The difference, rounded once. -/
def sub : Double → Double → Double
  | .nan, _ => .nan
  | _, .nan => .nan
  | .infinite s, .infinite t => if s = t then .nan else .infinite s
  | .infinite s, .finite .. => .infinite s
  | .finite .., .infinite t => .infinite (!t)
  | .finite s m q _, .finite t n r _ =>
    let unit := min q r
    let difference := inUnits s m q unit - inUnits t n r unit
    if difference = 0 then zero (s && !t)
    else ofScaled (difference < 0) difference.natAbs unit

/-- Strictly below; nothing is below or above not-a-number. -/
def lt : Double → Double → Bool
  | .nan, _ => false
  | _, .nan => false
  | .infinite s, .infinite t => s && !t
  | .infinite s, .finite .. => s
  | .finite .., .infinite t => !t
  | .finite s m q _, .finite t n r _ =>
    let unit := min q r
    inUnits s m q unit < inUnits t n r unit

/-- Numerator and denominator of the absolute value of a finite double. -/
def ratio (mantissa : Nat) (exponent : Int) : Nat × Nat :=
  match exponent with
  | .ofNat k => (mantissa <<< k, 1)
  | .negSucc k => (mantissa, 1 <<< (k + 1))

/-- The nearest 64-bit count, halves going up: nothing is below zero and all above the range is the
largest count. -/
def toUInt64 : Double → UInt64
  | .nan => 0
  | .infinite negative => if negative then 0 else UInt64.ofNat (UInt64.size - 1)
  | .finite negative mantissa exponent _ =>
    if negative then 0
    else
      let (num, den) := ratio mantissa exponent
      UInt64.ofNat (min (roundDiv .up num den) (UInt64.size - 1))

/-- The 64 bits of the interchange format: sign, eleven bits of exponent, 52 bits of mantissa. -/
def toBits : Double → UInt64
  | .nan => UInt64.ofNat (2047 * fullMantissa + fullMantissa / 2)
  | .infinite negative => UInt64.ofNat (signBit negative + 2047 * fullMantissa)
  | .finite negative mantissa exponent _ =>
    UInt64.ofNat (signBit negative +
      (if mantissa < fullMantissa then mantissa
       else (exponent + 1075).toNat * fullMantissa + (mantissa - fullMantissa)))
where
  /-- The weight of the sign. -/
  signBit (negative : Bool) : Nat := if negative then 1 <<< 63 else 0

end Double

end QueryScope
