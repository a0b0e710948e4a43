/-
Rounding to the nearest number.

`IsNearest` says of a number and an exact value what rounding to nearest, ties to even,
means, with no word of how it is done. Rounding a quotient of units does just that, and
nothing else does (`isNearest_iff`), short of `overflow`, and overflows from there on
(`nearest_lt_limit_iff`). The grain is that of the binade of the quotient, so the even
multiple of it is also the number with the even significand, on the power of two above
the binade too (`significand_near`).
-/
import Mathlib.Algebra.Order.Field.Basic
import Mathlib.Data.Rat.Cast.Order
import Mathlib.Tactic.FieldSimp
import Mathlib.Tactic.Linarith
import Mathlib.Tactic.Positivity
import Mathlib.Tactic.Ring
import MetricStream.Proofs.Binary64.Integer

namespace MetricStream

namespace Binary64

/-! ## Rounded quotients -/

/-- How far `m` is from `n / d`, in parts of `d`. -/
def offset (m n d : ℕ) : ℕ := ((m * d : ℕ) - (n : ℤ)).natAbs

/-- A rounded quotient is the integer next below or next above, and no integer is nearer. -/
theorem offset_roundDiv_le {n d : ℕ} (hd : 0 < d) (m : ℕ) :
    offset (roundDiv n d) n d ≤ offset m n d := by
  have hdiv := Nat.div_add_mod n d
  have hmod := Nat.mod_lt n hd
  unfold offset roundDiv
  simp only
  generalize n / d = q at *
  generalize n % d = r at *
  rw [Nat.mul_comm d q] at hdiv
  rcases Nat.lt_or_ge q m with hm | hm
  · have hle : (q + 1) * d ≤ m * d := Nat.mul_le_mul_right d hm
    rw [Nat.succ_mul] at hle
    split
    · omega
    · rw [Nat.succ_mul]
      omega
  · have hle : m * d ≤ q * d := Nat.mul_le_mul_right d hm
    split
    · omega
    · rw [Nat.succ_mul]
      omega

/-- Of two integers that are equally near the rounded quotient is the even one. -/
theorem roundDiv_of_offset_eq {n d m : ℕ} (hd : 0 < d) (h : offset m n d = offset (roundDiv n d) n d)
    (hne : m ≠ roundDiv n d) :
    roundDiv n d % 2 = 0 ∧ m % 2 = 1 ∧ n / d ≤ m ∧ m ≤ n / d + 1 := by
  have hdiv := Nat.div_add_mod n d
  have hmod := Nat.mod_lt n hd
  unfold offset at h
  unfold roundDiv at *
  simp only at *
  generalize n / d = q at *
  generalize n % d = r at *
  rw [Nat.mul_comm d q] at hdiv
  -- An integer past the two next to the quotient is farther than both.
  have hnext : q ≤ m ∧ m ≤ q + 1 := by
    constructor
    · by_contra hlt
      have hle : (m + 1) * d ≤ q * d := Nat.mul_le_mul_right d (by omega)
      rw [Nat.succ_mul] at hle
      split at h
      · omega
      · rw [Nat.succ_mul] at h
        omega
    · by_contra hlt
      have hle : (q + 2) * d ≤ m * d := Nat.mul_le_mul_right d (by omega)
      rw [Nat.add_mul] at hle
      split at h
      · omega
      · rw [Nat.succ_mul] at h
        omega
  obtain rfl | rfl : m = q ∨ m = q + 1 := by omega
  · split at h <;> rename_i hcond
    · rw [if_pos hcond] at hne
      exact absurd rfl hne
    · rw [if_neg hcond]
      rw [Nat.succ_mul] at h
      omega
  · split at h <;> rename_i hcond
    · rw [if_pos hcond]
      rw [Nat.succ_mul] at h
      omega
    · rw [if_neg hcond] at hne
      exact absurd rfl hne

/-! ## Significands -/

/-- The significant bits of a magnitude, as an integer. -/
def significand (k : ℕ) : ℕ := k / grain k

theorem significand_mul {r j : ℕ} (hlt : r < twoTo 53) (hge : j = 0 ∨ twoTo 52 ≤ r) :
    significand (r * twoTo j) = r := by
  have hgrain : grain (r * twoTo j) = twoTo j := by
    rcases Nat.eq_zero_or_pos r with rfl | hr
    · obtain rfl : j = 0 := hge.resolve_right (by decide)
      rfl
    have hpos : r * twoTo j ≠ 0 := (Nat.mul_pos hr (Nat.two_pow_pos j)).ne'
    have hbelow : (r * twoTo j).log2 < 53 + j := by
      rw [Nat.log2_lt hpos, Nat.pow_add]
      exact Nat.mul_lt_mul_of_pos_right hlt (Nat.two_pow_pos j)
    rcases hge with rfl | hge
    · rw [grain, show (r * twoTo 0).log2 - 52 = 0 by omega]
    · have habove : ¬ (r * twoTo j).log2 < 52 + j := by
        rw [Nat.log2_lt hpos, Nat.pow_add, Nat.not_lt]
        exact Nat.mul_le_mul_right _ hge
      rw [grain, show (r * twoTo j).log2 - 52 = j by omega]
  rw [significand, hgrain]
  exact Nat.mul_div_cancel _ (Nat.two_pow_pos j)

theorem significand_twoTo (j : ℕ) : significand (twoTo 53 * twoTo j) = twoTo 52 := by
  have hsame : twoTo 53 * twoTo j = twoTo 52 * twoTo (j + 1) := by
    simp only [twoTo, Nat.pow_eq, ← Nat.pow_add]
    rw [show 53 + j = 52 + (j + 1) by omega]
  rw [hsame]
  exact significand_mul (by decide) (.inr (Nat.le_refl _))

/-! ## The nearest magnitude -/

/-- What there is to know of the binade of a quotient: its grain is a power of two, the
quotient has at most 53 bits above it, and exactly as many unless the grain is one. -/
theorem exists_binade (k : ℕ) :
    ∃ j, grain k = twoTo j ∧ k < twoTo 53 * twoTo j ∧ (j = 0 ∨ twoTo 52 * twoTo j ≤ k) := by
  refine ⟨k.log2 - 52, rfl, ?_, ?_⟩
  · rw [show twoTo 53 * twoTo (k.log2 - 52) = twoTo (53 + (k.log2 - 52)) from (Nat.pow_add 2 53 _).symm]
    exact Nat.lt_of_lt_of_le Nat.lt_log2_self (Nat.pow_le_pow_right Nat.two_pos (by omega))
  · rcases Nat.lt_or_ge 52 k.log2 with h | h
    · refine .inr ((mul_grain h.le).trans_le (Nat.log2_self_le ?_))
      rintro rfl
      simp at h
    · exact .inl (by omega)

theorem significand_near {k r : ℕ} (hlow : k / grain k ≤ r) (hhigh : r ≤ k / grain k + 1) :
    significand (r * grain k) % 2 = r % 2 := by
  obtain ⟨j, hj, hlt, hge⟩ := exists_binade k
  rw [hj] at hlow hhigh ⊢
  have hbelow : k / twoTo j < twoTo 53 := (Nat.div_lt_iff_lt_mul (Nat.two_pow_pos j)).2 hlt
  have habove : j = 0 ∨ twoTo 52 ≤ r :=
    hge.imp_right fun h => ((Nat.le_div_iff_mul_le (Nat.two_pow_pos j)).2 h).trans hlow
  rcases Nat.lt_or_ge r (twoTo 53) with hr | hr
  · rw [significand_mul hr habove]
  · obtain rfl : r = twoTo 53 := by omega
    rw [significand_twoTo]
    decide

theorem lt_of_not_grain_dvd {m k : ℕ} (hm : grain m ∣ m) (h : ¬ grain k ∣ m) :
    m < twoTo 52 * grain k ∧ twoTo 52 * grain k ≤ k := by
  obtain ⟨j, hj, -, hk⟩ := exists_binade k
  rw [hj] at h ⊢
  have hj0 : j ≠ 0 := by
    rintro rfl
    exact h (Nat.one_dvd m)
  refine ⟨?_, hk.resolve_left hj0⟩
  by_contra hge
  refine h ((Nat.pow_dvd_pow 2 ?_).trans hm)
  have hpos : m ≠ 0 := by
    have : 0 < twoTo 52 * twoTo j := Nat.mul_pos (Nat.two_pow_pos 52) (Nat.two_pow_pos j)
    omega
  have hlog : ¬ m.log2 < 52 + j := by
    rw [Nat.log2_lt hpos, Nat.pow_add]
    exact hge
  omega

theorem nearest_mul (n d : ℕ) :
    nearest n d * d = roundDiv n (d * grain (n / d)) * (d * grain (n / d)) := by
  unfold nearest
  ring

theorem offset_nearest (n d : ℕ) :
    offset (nearest n d) n d = offset (roundDiv n (d * grain (n / d))) n (d * grain (n / d)) := by
  rw [offset, offset, nearest_mul]

theorem offset_mul_grain (m n d : ℕ) (g : ℕ) : offset (m * g) n d = offset m n (d * g) := by
  rw [offset, offset, Nat.mul_assoc, Nat.mul_comm g d]

/-- No magnitude is nearer than the nearest; and one of the lower binades is farther. -/
theorem offset_nearest_le {n d m : ℕ} (hd : 0 < d) (hm : grain m ∣ m) :
    offset (nearest n d) n d ≤ offset m n d ∧
      (¬ grain (n / d) ∣ m → offset (nearest n d) n d < offset m n d) := by
  have hpos : 0 < d * grain (n / d) := Nat.mul_pos hd (grain_pos _)
  rw [offset_nearest]
  by_cases hdvd : grain (n / d) ∣ m
  · obtain ⟨i, hi⟩ := hdvd
    rw [Nat.mul_comm] at hi
    subst hi
    rw [offset_mul_grain]
    exact ⟨offset_roundDiv_le hpos i, fun h => absurd (Nat.dvd_mul_left _ _) h⟩
  · -- The power of two below the quotient is a multiple of the grain, and nearer than `m`.
    obtain ⟨hlt, hle⟩ := lt_of_not_grain_dvd hm hdvd
    have hpower : offset (roundDiv n (d * grain (n / d))) n (d * grain (n / d)) ≤
        offset (twoTo 52 * grain (n / d)) n d := by
      rw [offset_mul_grain]
      exact offset_roundDiv_le hpos (twoTo 52)
    have hbelow : twoTo 52 * grain (n / d) * d ≤ n :=
      (Nat.mul_le_mul_right d hle).trans (Nat.div_mul_le_self n d)
    have hfar : m * d < twoTo 52 * grain (n / d) * d := Nat.mul_lt_mul_of_pos_right hlt hd
    have hstrict : offset (twoTo 52 * grain (n / d)) n d < offset m n d := by
      unfold offset
      omega
    exact ⟨(hpower.trans_lt hstrict).le, fun _ => hpower.trans_lt hstrict⟩

/-- Of two magnitudes that are equally near, the nearest is that with an even significand,
and the other has an odd one. -/
theorem nearest_of_offset_eq {n d m : ℕ} (hd : 0 < d) (hm : grain m ∣ m)
    (h : offset m n d = offset (nearest n d) n d) (hne : m ≠ nearest n d) :
    significand (nearest n d) % 2 = 0 ∧ significand m % 2 = 1 := by
  have hpos : 0 < d * grain (n / d) := Nat.mul_pos hd (grain_pos _)
  have hdvd : grain (n / d) ∣ m := by
    by_contra hno
    have hlt := (offset_nearest_le (n := n) hd hm).2 hno
    omega
  obtain ⟨i, hi⟩ := hdvd
  rw [Nat.mul_comm] at hi
  subst hi
  have hround : i ≠ roundDiv n (d * grain (n / d)) := by
    rintro rfl
    exact hne rfl
  rw [offset_nearest, offset_mul_grain] at h
  obtain ⟨heven, hodd, hlow, hhigh⟩ := roundDiv_of_offset_eq hpos h hround
  rw [← Nat.div_div_eq_div_mul] at hlow hhigh
  have hdown : n / d / grain (n / d) ≤ roundDiv n (d * grain (n / d)) := by
    rw [Nat.div_div_eq_div_mul]
    exact le_roundDiv n _
  have hup : roundDiv n (d * grain (n / d)) ≤ n / d / grain (n / d) + 1 := by
    rw [Nat.div_div_eq_div_mul]
    exact roundDiv_le n _
  exact ⟨(significand_near hdown hup).trans heven, (significand_near hlow hhigh).trans hodd⟩

/-! ## The nearest number -/

/-- The exact value of a finite number. -/
def value (x : Binary64) : ℚ := x.units / one

/-- The number has the minus sign, a zero too. -/
def isNegative : Binary64 → Bool
  | .finite s _ => s
  | .infinite s => s
  | .nan => false

/-- The last significant bit is zero. -/
def HasEvenSignificand : Binary64 → Prop
  | .finite _ a => significand a.units % 2 = 0
  | .infinite _ => False
  | .nan => False

/-- The number is finite, no finite one is nearer to the value, and if another one is as
near its own last significant bit is zero. -/
structure IsNearest (v : ℚ) (x : Binary64) : Prop where
  finite : x.isFinite = true
  nearest : ∀ y : Binary64, y.isFinite = true → |x.value - v| ≤ |y.value - v|
  even : ∀ y : Binary64, y.isFinite = true → |y.value - v| = |x.value - v| → y.value ≠ x.value →
    x.HasEvenSignificand

theorem IsNearest.value_eq {v : ℚ} {x y : Binary64} (h : IsNearest v x) (hy : y.isFinite = true)
    (hv : y.value = v) : x.value = v := by
  have hle := h.nearest y hy
  rw [hv, sub_self, abs_zero] at hle
  exact sub_eq_zero.1 (abs_nonpos_iff.1 hle)

/-- The sign as a factor. -/
def signFactor (negative : Bool) : ℤ := if negative then -1 else 1

/-- The value of `n / d` units with this sign. -/
def ratio (negative : Bool) (n d : ℕ) : ℚ := signFactor negative * (n / (d * one))

/-- How far a finite number is from such a value, in parts of `d`. -/
def away (x : Binary64) (negative : Bool) (n d : ℕ) : ℕ := (x.units * d - signFactor negative * n).natAbs

theorem units_finite (negative : Bool) (a : Magnitude) :
    (finite negative a).units = signFactor negative * a.units := by
  cases negative
  · exact (Int.one_mul _).symm
  · exact (Int.neg_one_mul _).symm

theorem natAbs_signFactor (negative : Bool) : (signFactor negative).natAbs = 1 := by
  cases negative <;> rfl

section

variable {negative : Bool} {n d : ℕ}

theorem abs_value_sub_ratio (hd : 0 < d) (x : Binary64) :
    |x.value - ratio negative n d| = x.away negative n d / (d * one) := by
  have hone : (0 : ℚ) < one := by exact_mod_cast one_pos
  have hd' : (0 : ℚ) < d := by exact_mod_cast hd
  have hdiff : x.value - ratio negative n d =
      ((x.units * d - signFactor negative * n : ℤ) : ℚ) / (d * one) := by
    rw [value, ratio]
    push_cast
    field_simp
  rw [hdiff, abs_div, abs_of_pos (mul_pos hd' hone), away, Nat.cast_natAbs, Int.cast_abs]

theorem abs_le_abs_iff (hd : 0 < d) (x y : Binary64) :
    |x.value - ratio negative n d| ≤ |y.value - ratio negative n d| ↔
      x.away negative n d ≤ y.away negative n d := by
  have hpos : (0 : ℚ) < d * one := by
    exact_mod_cast Nat.mul_pos hd one_pos
  rw [abs_value_sub_ratio hd, abs_value_sub_ratio hd, div_le_div_iff_of_pos_right hpos, Nat.cast_le]

theorem away_same (a : Magnitude) : (finite negative a).away negative n d = offset a.units n d := by
  have hfactor : (finite negative a).units * d - signFactor negative * n =
      signFactor negative * ((a.units * d : ℕ) - (n : ℤ)) := by
    rw [units_finite]
    push_cast
    ring
  rw [away, hfactor, Int.natAbs_mul, natAbs_signFactor, Nat.one_mul, offset]

theorem away_other (a : Magnitude) : (finite (!negative) a).away negative n d = a.units * d + n := by
  have hfactor : (finite (!negative) a).units * d - signFactor negative * n =
      signFactor (!negative) * ((a.units * d + n : ℕ) : ℤ) := by
    rw [units_finite]
    cases negative <;> simp only [signFactor, Bool.not_true, Bool.not_false, if_true, if_false,
      Bool.false_eq_true] <;> push_cast <;> ring
  rw [away, hfactor, Int.natAbs_mul, natAbs_signFactor, Nat.one_mul, Int.natAbs_natCast]

theorem offset_zero : offset 0 n d = n := by
  rw [offset, Nat.zero_mul]
  omega

theorem value_eq_iff {x y : Binary64} : x.value = y.value ↔ x.units = y.units := by
  have hone : (one : ℚ) ≠ 0 := by exact_mod_cast one_pos.ne'
  rw [value, value, div_left_inj' hone, Int.cast_inj]

theorem exists_magnitude (negative : Bool) {x : Binary64} (hx : x.isFinite = true) :
    ∃ a, x = finite negative a ∨ x = finite (!negative) a := by
  rcases x with ⟨s, a⟩ | s | _
  case infinite => cases hx
  case nan => cases hx
  refine ⟨a, ?_⟩
  cases s <;> cases negative <;> simp

theorem offset_nearest_le_away (hd : 0 < d) {x : Binary64} (hx : x.isFinite = true) :
    offset (nearest n d) n d ≤ x.away negative n d := by
  obtain ⟨a, rfl | rfl⟩ := exists_magnitude negative hx
  · rw [away_same]
    exact (offset_nearest_le hd a.grain_dvd).1
  · have hzero := (offset_nearest_le (n := n) hd (Nat.dvd_zero (grain 0))).1
    rw [offset_zero] at hzero
    rw [away_other]
    omega

theorem exists_magnitude_of_near (hd : 0 < d) {x : Binary64} (hx : x.isFinite = true)
    (h : x.away negative n d = offset (nearest n d) n d) :
    ∃ a : Magnitude, x.units = (finite negative a).units ∧
      offset a.units n d = offset (nearest n d) n d := by
  obtain ⟨a, rfl | rfl⟩ := exists_magnitude negative hx
  · rw [away_same] at h
    exact ⟨a, rfl, h⟩
  · have hzero := (offset_nearest_le (n := n) hd (Nat.dvd_zero (grain 0))).1
    rw [offset_zero] at hzero
    rw [away_other] at h
    have hnone : a.units = 0 := (Nat.mul_eq_zero.1 (show a.units * d = 0 by omega)).resolve_right hd.ne'
    refine ⟨.zero, by rw [units_finite, units_finite, hnone]; simp [Magnitude.zero], ?_⟩
    rw [Magnitude.zero, offset_zero]
    omega

theorem ofRatio_eq_finite (h : nearest n d < limit) :
    ofRatio negative n d = finite negative ⟨nearest n d, h, grain_dvd_nearest n d⟩ :=
  dif_pos h

variable (hd : 0 < d) (h : nearest n d < limit)
include hd h

/-- **Rounding is to the nearest number**, and of two that are as near to the even one. -/
theorem isNearest_ofRatio : IsNearest (ratio negative n d) (ofRatio negative n d) := by
  rw [ofRatio_eq_finite h]
  refine ⟨rfl, fun y hy => ?_, fun y hy htie hne => ?_⟩
  · rw [abs_le_abs_iff hd, away_same]
    exact offset_nearest_le_away hd hy
  · have haway := htie.le
    rw [abs_le_abs_iff hd, away_same] at haway
    obtain ⟨a, hunits, hoffset⟩ :=
      exists_magnitude_of_near hd hy (Nat.le_antisymm haway (offset_nearest_le_away hd hy))
    have hother : a.units ≠ nearest n d := by
      intro heq
      refine hne (value_eq_iff.2 ?_)
      rw [hunits, units_finite, units_finite, heq]
    exact (nearest_of_offset_eq hd a.grain_dvd hoffset hother).1

/-- **One number is nearest**, up to the sign of zero. -/
theorem eq_ofRatio_of_isNearest {x : Binary64} (hx : IsNearest (ratio negative n d) x)
    (hsign : x.isNegative = negative) : x = ofRatio negative n d := by
  have hround : IsNearest (ratio negative n d) _ := isNearest_ofRatio hd h
  have hle := hx.nearest _ hround.finite
  have hge := hround.nearest x hx.finite
  rw [ofRatio_eq_finite h] at *
  rcases x with ⟨s, a⟩ | s | _
  case infinite => cases hx.finite
  case nan => cases hx.finite
  obtain rfl : s = negative := hsign
  have hoffset : offset a.units n d = offset (nearest n d) n d := by
    refine Nat.le_antisymm ?_ (offset_nearest_le hd a.grain_dvd).1
    rw [abs_le_abs_iff hd, away_same, away_same] at hle
    exact hle
  by_cases hunits : a.units = nearest n d
  · rw [finite.injEq]
    exact ⟨rfl, Magnitude.ext hunits⟩
  · -- As near as the even number and another one, it would itself be odd.
    have hodd := (nearest_of_offset_eq hd a.grain_dvd hoffset hunits).2
    have hother : (finite s ⟨nearest n d, h, grain_dvd_nearest n d⟩).value ≠ (finite s a).value := by
      have hfactor : signFactor s ≠ 0 := by cases s <;> decide
      rw [Ne, value_eq_iff, units_finite, units_finite, Int.mul_eq_mul_left_iff hfactor, Nat.cast_inj]
      exact Ne.symm hunits
    have heven : significand a.units % 2 = 0 := hx.even _ hround.finite (hge.antisymm hle) hother
    omega

theorem isNearest_iff {x : Binary64} :
    x = ofRatio negative n d ↔ IsNearest (ratio negative n d) x ∧ x.isNegative = negative := by
  constructor
  · intro hx
    rw [hx]
    exact ⟨isNearest_ofRatio hd h, by rw [ofRatio_eq_finite h, isNegative]⟩
  · rintro ⟨hx, hsign⟩
    exact eq_ofRatio_of_isNearest hd h hx hsign

end

/-! ## The finite range -/

/-- From here on values are nearer to `2 ^ 1024` than to the greatest finite number, or as
near to both. -/
def overflow : ℚ := 2 ^ 1024 - 2 ^ 970

theorem limit_eq : limit = twoTo 1024 * one := by decide +kernel

theorem cast_twoTo (n : ℕ) : ((twoTo n : ℕ) : ℚ) = 2 ^ n := by
  simp [twoTo]

theorem abs_ratio (negative : Bool) (n d : ℕ) : |ratio negative n d| = n / (d * one) := by
  have hnonneg : (0 : ℚ) ≤ n / (d * one) := by positivity
  rw [ratio, abs_mul, abs_of_nonneg hnonneg, ← Int.cast_abs, Int.abs_eq_natAbs, natAbs_signFactor,
    Nat.cast_one, Int.cast_one, one_mul]

/-- **Rounding overflows** exactly from there on. -/
theorem nearest_lt_limit_iff {n d : ℕ} (hd : 0 < d) (negative : Bool) :
    nearest n d < limit ↔ |ratio negative n d| < overflow := by
  have hpos : (0 : ℚ) < d * one := by exact_mod_cast Nat.mul_pos hd one_pos
  have hhalf : twoTo 970 * one = twoTo 2044 := by decide +kernel
  have hiff : nearest n d < limit ↔ n + twoTo 2044 * d < limit * d := nearest_lt_twoTo_iff n 2044 hd
  rw [hiff, limit_eq, ← hhalf, abs_ratio, div_lt_iff₀ hpos, overflow, ← cast_twoTo, ← cast_twoTo,
    sub_mul, lt_sub_iff_add_lt]
  generalize twoTo 1024 = top, twoTo 970 = half, one = unit
  rw [mul_left_comm (half : ℚ), mul_left_comm (top : ℚ), ← Nat.cast_mul, ← Nat.cast_mul,
    ← Nat.cast_mul, ← Nat.cast_mul, ← Nat.cast_add, Nat.cast_lt, Nat.mul_comm d, Nat.mul_comm d]

end Binary64

end MetricStream
