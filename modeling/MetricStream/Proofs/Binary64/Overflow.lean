/-
Where quotients and sums leave the finite numbers.

The greatest finite number lies `2 ^ 971` below `2 ^ 1024`, and a quotient or a sum
rounds to an infinity exactly if it is as near to the latter (`nearest_lt_twoTo_iff`,
`isFinite_add_iff`). An
infinity stays one whatever finite number is added to it, so numbers added up
from the left come to a finite sum exactly if every step on the way does
(`isFinite_foldl_iff`).
-/
import Mathlib.Data.Nat.Basic
import Mathlib.Tactic.Ring
import MetricStream.Binary64

namespace MetricStream

namespace Binary64

/-! ## Rounding past a power of two -/

theorem nearest_le (n d : Nat) : nearest n d * d ≤ n + grain (n / d) * d := by
  rw [nearest]
  generalize grain (n / d) = g
  calc
    roundDiv n (d * g) * g * d ≤ (n / (d * g) + 1) * g * d :=
      Nat.mul_le_mul_right _ (Nat.mul_le_mul_right _ (roundDiv_le n _))
    _ = n / (d * g) * (d * g) + g * d := by
      rw [Nat.succ_mul, Nat.add_mul, Nat.mul_assoc, Nat.mul_comm g d]
    _ ≤ n + g * d := Nat.add_le_add_right (Nat.div_mul_le_self n _) _

theorem mul_grain {k : Nat} (h : 52 ≤ k.log2) : twoTo 52 * grain k = twoTo k.log2 := by
  rw [grain, show k.log2 = 52 + (k.log2 - 52) by omega, Nat.add_sub_cancel_left]
  exact (Nat.pow_add 2 52 _).symm

theorem twoTo_le_nearest {n d k : Nat} (hk : 52 ≤ k) (h : twoTo k ≤ n / d) : twoTo k ≤ nearest n d := by
  have hn : n / d ≠ 0 := by
    have hpos : 0 < twoTo k := Nat.two_pow_pos k
    omega
  have hlog : k ≤ (n / d).log2 := by
    by_contra hlt
    have hbelow : n / d < twoTo k := (Nat.log2_lt hn).1 (Nat.lt_of_not_le hlt)
    omega
  have hgrain : twoTo 52 * grain (n / d) = twoTo (n / d).log2 := mul_grain (hk.trans hlog)
  have hdiv : twoTo 52 ≤ n / (d * grain (n / d)) := by
    rw [← Nat.div_div_eq_div_mul, Nat.le_div_iff_mul_le (grain_pos _), hgrain]
    exact Nat.log2_self_le hn
  calc
    twoTo k ≤ twoTo (n / d).log2 := Nat.pow_le_pow_right Nat.two_pos hlog
    _ = twoTo 52 * grain (n / d) := hgrain.symm
    _ ≤ n / (d * grain (n / d)) * grain (n / d) := Nat.mul_le_mul_right _ hdiv
    _ ≤ nearest n d := Nat.mul_le_mul_right _ (le_roundDiv n _)

/-- In the last binade below a power of two, a quotient of 53 bits is rounded up
to it exactly from half a grain on. -/
theorem roundDiv_lt_iff {n h : Nat} (hh : 0 < h) (hlt : n < twoTo 53 * (2 * h)) :
    roundDiv n (2 * h) < twoTo 53 ↔ n + h < twoTo 53 * (2 * h) := by
  have hdiv := Nat.div_add_mod n (2 * h)
  have hmod := Nat.mod_lt n (show 0 < 2 * h by omega)
  unfold roundDiv
  simp only
  generalize n / (2 * h) = q at *
  generalize n % (2 * h) = r at *
  have h53 : twoTo 53 = 9007199254740992 := by decide
  rw [h53] at hlt ⊢
  -- Only the greatest quotient is left to decide, and it is odd, so half a grain goes up.
  rcases Nat.lt_or_ge q 9007199254740991 with hq | hq
  · have hle : 2 * h * (q + 1) ≤ 2 * h * 9007199254740991 := Nat.mul_le_mul_left _ hq
    rw [Nat.mul_succ] at hle
    split <;> omega
  · have hq' : q = 9007199254740991 := by
      by_contra hne
      have hge : 2 * h * 9007199254740992 ≤ 2 * h * q := Nat.mul_le_mul_left _ (by omega)
      omega
    subst hq'
    split <;> omega

/-- A quotient is rounded to a power of two or past it exactly from half a grain
below it on, where the power is the even one of the two. -/
theorem nearest_lt_twoTo_iff (n i : Nat) {d : Nat} (hd : 0 < d) :
    nearest n d < twoTo (i + 54) ↔ n + twoTo i * d < twoTo (i + 54) * d := by
  have h53 : twoTo (i + 54) = twoTo (i + 53) * 2 := Nat.pow_succ 2 (i + 53)
  have hfit : ∀ k, n / d < k ↔ n < k * d := fun k => Nat.div_lt_iff_lt_mul hd
  -- Below the last binade the grain is too small to matter, past it both sides fail.
  by_cases hlow : n / d < twoTo (i + 53)
  · have hgrain : grain (n / d) ≤ twoTo i := by
      refine Nat.pow_le_pow_right Nat.two_pos ?_
      by_cases hn : n / d = 0
      · simp [hn]
      · have hlog : (n / d).log2 < i + 53 := (Nat.log2_lt hn).2 hlow
        omega
    have hle := nearest_le n d
    have hscaled : grain (n / d) * d ≤ twoTo i * d := Nat.mul_le_mul_right d hgrain
    have hi : twoTo i * d ≤ twoTo (i + 53) * d := 
      Nat.mul_le_mul_right d (Nat.pow_le_pow_right Nat.two_pos (by omega))
    have htop : twoTo (i + 54) * d = twoTo (i + 53) * d + twoTo (i + 53) * d := by rw [h53]; ring
    rw [hfit] at hlow
    rw [← Nat.mul_lt_mul_right hd]
    omega
  by_cases hhigh : n / d < twoTo (i + 54)
  · have hlog : (n / d).log2 = i + 53 := by
      have hn : n / d ≠ 0 := by
        have hpos : 0 < twoTo (i + 53) := Nat.two_pow_pos _
        omega
      have h1 : (n / d).log2 < i + 54 := (Nat.log2_lt hn).2 hhigh
      have h2 : ¬ (n / d).log2 < i + 53 := mt (Nat.log2_lt hn).1 hlow
      omega
    have hpos : 0 < twoTo i := Nat.two_pow_pos i
    have hdouble : twoTo (i + 1) = 2 * twoTo i := Nat.pow_succ'
    have hgrain : grain (n / d) = 2 * twoTo i := by
      rw [grain, hlog, show i + 53 - 52 = i + 1 by omega, hdouble]
    have htop : twoTo (i + 54) = twoTo 53 * (2 * twoTo i) := by
      rw [← hdouble, show i + 54 = 53 + (i + 1) by omega]
      exact Nat.pow_add 2 53 (i + 1)
    have hhalf : d * (2 * twoTo i) = 2 * (twoTo i * d) := by ring
    have hscaled : twoTo (i + 54) * d = twoTo 53 * (2 * (twoTo i * d)) := by rw [htop]; ring
    rw [hfit, hscaled] at hhigh
    rw [nearest, hgrain, htop, Nat.mul_lt_mul_right (Nat.mul_pos Nat.two_pos hpos), hhalf,
      roundDiv_lt_iff (Nat.mul_pos hpos hd) hhigh, ← hscaled, htop]
  · -- The power is itself among the numbers that can be rounded to.
    have hge := twoTo_le_nearest (k := i + 54) (by omega) (Nat.le_of_not_lt hhigh)
    rw [hfit] at hhigh
    omega

/-! ## Sums -/

/-- The exact sum of two finite numbers, in units. -/
def exactSum : Binary64 → Binary64 → Int
  | .finite s a, .finite t b => signed s a + signed t b
  | _, _ => 0

/-- The exact sum of two finite numbers is in the finite range: it is nearer to
a finite number than to `2 ^ 1024`, so below it by more than `2 ^ 970`. -/
def SumFits (x y : Binary64) : Prop := (exactSum x y).natAbs + twoTo 2044 < limit

instance (x y : Binary64) : Decidable (SumFits x y) := Nat.decLt _ _

theorem isFinite_ofRatio (negative : Bool) (n d : Nat) :
    (ofRatio negative n d).isFinite = true ↔ nearest n d < limit := by
  unfold ofRatio
  split
  · next h => simp only [isFinite, h]
  · next h => simp only [isFinite, h, Bool.false_eq_true]

/-- **Overflow of a sum.** -/
theorem isFinite_add_iff {x y : Binary64} (hx : x.isFinite = true) (hy : y.isFinite = true) :
    (x + y).isFinite = true ↔ SumFits x y := by
  rcases x with ⟨s, a⟩ | s | _
  case infinite => cases hx
  case nan => cases hx
  rcases y with ⟨t, b⟩ | t | _
  case infinite => cases hy
  case nan => cases hy
  have hadd : (finite s a : Binary64) + finite t b = addFinite s a t b := rfl
  rw [hadd, addFinite, SumFits, exactSum]
  generalize signed s a + signed t b = sum
  split
  · next hzero =>
    have hlt : twoTo 2044 < limit := by decide +kernel
    simpa [hzero, isFinite] using hlt
  · rw [isFinite_ofRatio]
    have hiff := nearest_lt_twoTo_iff sum.natAbs 2044 Nat.one_pos
    rw [Nat.mul_one, Nat.mul_one] at hiff
    exact hiff

theorem not_isFinite_add {x y : Binary64} (hx : x.isFinite = false) (hy : y.isFinite = true) :
    (x + y).isFinite = false := by
  rcases y with ⟨t, b⟩ | t | _
  case infinite => cases hy
  case nan => cases hy
  rcases x with ⟨s, a⟩ | s | _
  case finite => cases hx
  · rfl
  · rfl

/-- The numbers can be added up from the left, beginning with the first, and
every exact sum on the way is in the finite range. -/
def SumsFit : Binary64 → List Binary64 → Prop
  | _, [] => True
  | sum, x :: xs => SumFits sum x ∧ SumsFit (sum + x) xs

instance decidableSumsFit : ∀ (sum : Binary64) (xs : List Binary64), Decidable (SumsFit sum xs)
  | _, [] => .isTrue trivial
  | sum, x :: xs =>
    have := decidableSumsFit (sum + x) xs
    inferInstanceAs (Decidable (SumFits sum x ∧ SumsFit (sum + x) xs))

theorem SumsFit.of_append {sum : Binary64} {xs ys : List Binary64} (h : SumsFit sum (xs ++ ys)) :
    SumsFit sum xs := by
  induction xs generalizing sum with
  | nil => trivial
  | cons x xs ih => exact ⟨h.1, ih h.2⟩

theorem not_isFinite_foldl {xs : List Binary64} (hxs : ∀ x ∈ xs, x.isFinite = true)
    {sum : Binary64} (hsum : sum.isFinite = false) : (xs.foldl (· + ·) sum).isFinite = false := by
  induction xs generalizing sum with
  | nil => exact hsum
  | cons x xs ih =>
    exact ih (fun y hy => hxs y (by simp [hy])) (not_isFinite_add hsum (hxs x (by simp)))

/-- **Overflow of a sum of many.** -/
theorem isFinite_foldl_iff {xs : List Binary64} (hxs : ∀ x ∈ xs, x.isFinite = true)
    {sum : Binary64} (hsum : sum.isFinite = true) :
    (xs.foldl (· + ·) sum).isFinite = true ↔ SumsFit sum xs := by
  induction xs generalizing sum with
  | nil => simp [SumsFit, hsum]
  | cons x xs ih =>
    have hx := hxs x (by simp)
    have hrest : ∀ y ∈ xs, y.isFinite = true := fun y hy => hxs y (by simp [hy])
    rw [List.foldl_cons, SumsFit, ← isFinite_add_iff hsum hx]
    cases hadd : (sum + x).isFinite with
    | true => simpa using ih hrest hadd
    | false => simp [not_isFinite_foldl hrest hadd]

end Binary64

end MetricStream
