/-
The shortest decimal that reads back to a binary64 number.

The reals that round to a number form an interval, from halfway to the number
below to halfway to the number above, both ends included when the number's
last significant bit is zero (`readsBack`). For one digit, then two, and so on,
the number's two neighbours on that decimal grid are tested; the first grid
with a hit wins, and of two hits the nearer one. All of it is exact integer
arithmetic: every number here is a fraction with the denominator
`4 * 2 ^ 1074`, so that half a gap is an integer even below a power of two,
where the gap downwards is half the gap upwards.
-/
import MetricStream.Binary64

namespace MetricStream

/-- `digits · 10 ^ exponent`. -/
structure Decimal where
  digits : Nat
  exponent : Int
deriving DecidableEq, Repr

namespace Decimal

/-- Which of two equally near decimals is taken. -/
inductive Tie where
  | toEven
  | up
deriving DecidableEq

/-- Four times the unit: what the ends of an interval are multiples of. -/
def quarter : Nat := 4 * Binary64.one

/-- Compares the decimal with `bound` quarters of a unit. -/
def compareQuarters (d : Decimal) (bound : Nat) : Ordering :=
  compare (d.digits * tenTo d.exponent.toNat * quarter) (bound * tenTo (-d.exponent).toNat)

/-- `k` is a power of two whose gap downwards is half its gap upwards. -/
def narrowBelow (k : Nat) : Bool := k == twoTo k.log2 && 52 < k.log2

/-- The lower end of the reals that round to `k` units, in quarters. -/
def lowerEnd (k : Nat) : Nat :=
  4 * k - (if narrowBelow k then Binary64.grain k else 2 * Binary64.grain k)

/-- The upper end of the reals that round to `k` units, in quarters. -/
def upperEnd (k : Nat) : Nat := 4 * k + 2 * Binary64.grain k

/-- Both ends round to `k` units: its last significant bit is zero. -/
def endsIncluded (k : Nat) : Bool := k / Binary64.grain k % 2 == 0

/-- The decimal lies among the reals that round to `k` units. -/
def readsBack (k : Nat) (d : Decimal) : Bool :=
  let low := d.compareQuarters (lowerEnd k)
  let high := d.compareQuarters (upperEnd k)
  (low == .gt || (endsIncluded k && low == .eq)) && (high == .lt || (endsIncluded k && high == .eq))

/-- The exponent of the leading decimal digit of `k` units. -/
def leadingExponent (k : Nat) : Int :=
  ((Nat.toDigits 10 (k * tenTo 400 / Binary64.one)).length : Int) - 401

/-- The integer below `k` units on the grid of `10 ^ exponent`. -/
def gridFloor (k : Nat) (exponent : Int) : Nat :=
  k * tenTo (-exponent).toNat / (Binary64.one * tenTo exponent.toNat)

/-- The nearer of two neighbours on a grid, given that both read back. -/
def nearer (tie : Tie) (k : Nat) (lower upper : Decimal) : Decimal :=
  -- the midpoint of the two, as a decimal of twice the digits over two
  match compareQuarters ⟨lower.digits + upper.digits, lower.exponent⟩ (8 * k) with
  | .gt => lower
  | .lt => upper
  | .eq => match tie with
    | .up => upper
    | .toEven => if lower.digits % 2 = 0 then lower else upper

/-- The decimal taken from the grid of `10 ^ exponent`, if one of it reads
back. -/
def onGrid? (tie : Tie) (k : Nat) (exponent : Int) : Option Decimal :=
  let lower : Decimal := ⟨gridFloor k exponent, exponent⟩
  let upper : Decimal := ⟨gridFloor k exponent + 1, exponent⟩
  match readsBack k lower, readsBack k upper with
  | true, true => some (nearer tie k lower upper)
  | true, false => some lower
  | false, true => some upper
  | false, false => none

/-- Moves factors of ten from the digits to the exponent, at most `fuel`. -/
def strip : Nat → Decimal → Decimal
  | 0, d => d
  | fuel + 1, d =>
    if d.digits ≠ 0 ∧ d.digits % 10 = 0 then strip fuel ⟨d.digits / 10, d.exponent + 1⟩ else d

/-- The shortest decimal that reads back to `k > 0` units. Seventeen digits
always suffice; should none of them, the exact value is the answer. -/
def shortest (tie : Tie) (k : Nat) : Decimal :=
  let lead := leadingExponent k
  let found := (List.range 17).findSome? fun (i : Nat) => onGrid? tie k (lead - i)
  strip 17 (found.getD ⟨k * Nat.pow 5 1074, -1074⟩)

end Decimal

end MetricStream
