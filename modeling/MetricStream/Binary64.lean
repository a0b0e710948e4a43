/-
Binary64 numbers as exact mathematics.

A finite number is its sign and its magnitude in units of `2 ^ -1074`, the
least positive number, so a magnitude is a natural number and two magnitudes
are the same exactly when their numbers are. `Magnitude` holds only the naturals
that 53 significant bits can express below `2 ^ 1024`; zero keeps its sign.

Every operation computes exactly and rounds once, to the nearest number, a
half to the one whose last significant bit is zero (`ofRatio`).
-/
import MetricStream.Power

namespace MetricStream

namespace Binary64

/-- Units in the number one. -/
def one : Nat := twoTo 1074

/-- Units in `2 ^ 1024`, the first power of two past the finite numbers. -/
def limit : Nat := twoTo 2098

/-- The weight of the last significant bit of a number of `k` units: numbers
have 53 significant bits, and never a fraction of a unit. -/
def grain (k : Nat) : Nat := twoTo (k.log2 - 52)

/-- The quotient rounded to the nearest integer, a half to the even one. -/
def roundDiv (n d : Nat) : Nat :=
  let q := n / d
  let r := n % d
  if 2 * r < d ∨ (2 * r = d ∧ q % 2 = 0) then q else q + 1

/-- The multiple of the grain nearest to `n / d` units. -/
def nearest (n d : Nat) : Nat :=
  let g := grain (n / d)
  roundDiv n (d * g) * g

theorem one_pos : 0 < one := by decide +kernel

theorem limit_pos : 0 < limit := by decide +kernel

theorem grain_pos (k : Nat) : 0 < grain k := Nat.two_pow_pos _

theorem le_roundDiv (n d : Nat) : n / d ≤ roundDiv n d := by
  unfold roundDiv
  simp only
  split <;> omega

theorem roundDiv_le (n d : Nat) : roundDiv n d ≤ n / d + 1 := by
  unfold roundDiv
  simp only
  split <;> omega

theorem grain_dvd_of_lt {m j : Nat} (h : m < twoTo 53) : grain (m * twoTo j) ∣ m * twoTo j := by
  by_cases hm : m = 0
  · simp [hm]
  have hpos : m * twoTo j ≠ 0 := Nat.mul_ne_zero hm (Nat.pos_iff_ne_zero.1 (Nat.two_pow_pos j))
  have hsplit : twoTo (53 + j) = twoTo 53 * twoTo j := Nat.pow_add 2 53 j
  have hlt : m * twoTo j < twoTo (53 + j) := by
    rw [hsplit]
    exact Nat.mul_lt_mul_of_pos_right h (Nat.two_pow_pos j)
  have hlog : (m * twoTo j).log2 < 53 + j := (Nat.log2_lt hpos).2 hlt
  exact Nat.dvd_trans (Nat.pow_dvd_pow 2 (by omega)) (Nat.dvd_mul_left _ _)

/-- Rounding lands on a number of 53 significant bits. -/
theorem grain_dvd_nearest (n d : Nat) : grain (nearest n d) ∣ nearest n d := by
  unfold nearest
  simp only
  generalize hj : (n / d).log2 - 52 = j
  have hg : grain (n / d) = twoTo j := by simp [grain, hj]
  rw [hg]
  have hsplit : twoTo (53 + j) = twoTo 53 * twoTo j := Nat.pow_add 2 53 j
  have hq : n / (d * twoTo j) < twoTo 53 := by
    rw [← Nat.div_div_eq_div_mul, Nat.div_lt_iff_lt_mul (show 0 < twoTo j from Nat.two_pow_pos j),
      ← hsplit]
    exact Nat.lt_of_lt_of_le Nat.lt_log2_self (Nat.pow_le_pow_right (by decide) (by omega))
  have hle := roundDiv_le n (d * twoTo j)
  by_cases hm : roundDiv n (d * twoTo j) < twoTo 53
  · exact grain_dvd_of_lt hm
  · have : roundDiv n (d * twoTo j) = twoTo 53 := by omega
    rw [this, ← hsplit, ← Nat.one_mul (twoTo (53 + j))]
    exact grain_dvd_of_lt (by decide)

end Binary64

/-- A finite number without its sign, in units of `2 ^ -1074`. -/
structure Magnitude where
  units : Nat
  /-- It is below `2 ^ 1024`. -/
  lt_limit : units < Binary64.limit
  /-- It has at most 53 significant bits. -/
  grain_dvd : Binary64.grain units ∣ units
deriving DecidableEq

/-- A binary64 number. The not-a-number values are one value here. -/
inductive Binary64 where
  | finite (negative : Bool) (magnitude : Magnitude)
  | infinite (negative : Bool)
  | nan
deriving DecidableEq

namespace Magnitude

def zero : Magnitude := ⟨0, Binary64.limit_pos, Nat.dvd_zero _⟩

theorem ext {a b : Magnitude} (h : a.units = b.units) : a = b := by
  cases a; cases b; simp_all

end Magnitude

namespace Binary64

/-- Neither an infinity nor a not-a-number value. -/
def isFinite : Binary64 → Bool
  | .finite _ _ => true
  | .infinite _ => false
  | .nan => false

/-- The number nearest to `n / d` units with this sign; an infinity where the
nearest would lie at `2 ^ 1024` or past it. -/
def ofRatio (negative : Bool) (n d : Nat) : Binary64 :=
  if h : nearest n d < limit then .finite negative ⟨nearest n d, h, grain_dvd_nearest n d⟩
  else .infinite negative

/-- A finite number's signed units. -/
def signed (negative : Bool) (magnitude : Magnitude) : Int :=
  if negative then -(magnitude.units : Int) else magnitude.units

/-- The sum of two finite numbers. A sum of zero is positive, unless both
numbers have the negative sign. -/
def addFinite (s : Bool) (a : Magnitude) (t : Bool) (b : Magnitude) : Binary64 :=
  let sum := signed s a + signed t b
  if sum = 0 then .finite (s && t) .zero else ofRatio (decide (sum < 0)) sum.natAbs 1

/-- The sum, exact and then rounded. Opposite infinities have none. -/
def add : Binary64 → Binary64 → Binary64
  | .nan, _ => .nan
  | _, .nan => .nan
  | .infinite s, .infinite t => if s = t then .infinite s else .nan
  | .infinite s, .finite _ _ => .infinite s
  | .finite _ _, .infinite t => .infinite t
  | .finite s a, .finite t b => addFinite s a t b

instance : Add Binary64 := ⟨add⟩

/-- The number nearest to a natural number. -/
def ofNat (n : Nat) : Binary64 := ofRatio false (n * one) 1

/-- The number with the other sign. -/
def neg : Binary64 → Binary64
  | .finite s a => .finite (!s) a
  | .infinite s => .infinite (!s)
  | .nan => .nan

instance : Neg Binary64 := ⟨neg⟩

end Binary64

end MetricStream
