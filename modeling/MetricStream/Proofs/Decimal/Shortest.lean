/-
The decimal that a number is shown as is read back as the number.

A decimal that lies among the reals that round to a number (`readsBack`) does
round to it: the two ends lie no farther than halfway to any other number, and
on an end itself the even one is nearest. Every decimal that the search takes is
tested so, and the one it falls back on is the number's exact value; moving
factors of ten to the exponent changes no value. So this does not depend on the
leading digit, the grids or the choice between neighbours.
-/
import MetricStream.Decimal.Shortest
import MetricStream.Proofs.Binary64.Typed

namespace MetricStream

namespace Decimal

open Binary64

/-! ## The ends of the interval -/

/-- Where the interval is narrow below, the number is the power of two at which the grain
doubles. -/
theorem grain_of_narrowBelow {k : ℕ} (h : narrowBelow k = true) :
    grain k = 2 * grain (k - 1) ∧ k = 2 * (twoTo 52 * grain (k - 1)) := by
  rw [narrowBelow, Bool.and_eq_true, beq_iff_eq, decide_eq_true_eq] at h
  obtain ⟨hpower, hbig⟩ := h
  obtain ⟨j, hj⟩ : ∃ j, k.log2 = j + 53 := ⟨k.log2 - 53, by omega⟩
  have hdouble (i : ℕ) : twoTo (i + 1) = 2 * twoTo i := Nat.pow_succ'
  have hlow : (k - 1).log2 = j + 52 := by
    have hhalf : twoTo (j + 53) = 2 * twoTo (j + 52) := hdouble (j + 52)
    have hlarge : 1 < twoTo (j + 52) := Nat.one_lt_two_pow (by omega)
    rw [hj] at hpower
    have hne : k - 1 ≠ 0 := by omega
    have hlt : (k - 1).log2 < j + 53 := (Nat.log2_lt hne).2 (show k - 1 < twoTo (j + 53) by omega)
    have hge : ¬ (k - 1).log2 < j + 52 :=
      mt (Nat.log2_lt hne).1 (show ¬ k - 1 < twoTo (j + 52) by omega)
    omega
  have hgrain : grain (k - 1) = twoTo j := by rw [grain, hlow, Nat.add_sub_cancel]
  rw [hgrain, show twoTo 52 * twoTo j = twoTo (j + 52) from (Nat.pow_add' 2 j 52).symm, ← hdouble,
    ← hdouble]
  rw [hj] at hpower
  refine ⟨?_, hpower⟩
  rw [grain, hj, show j + 53 - 52 = j + 1 by omega]

section

variable {k m : ℕ} (hk : grain k ∣ k) (hm : grain m ∣ m)
include hk hm

/-- The upper end lies at most halfway to a greater magnitude. -/
theorem upperEnd_le (h : k < m) : upperEnd k ≤ 2 * k + 2 * m := by
  have hdvd : grain k ∣ m := by
    by_contra hno
    have := lt_of_not_grain_dvd hm hno
    omega
  have hgap : grain k ≤ m - k := Nat.le_of_dvd (by omega) (Nat.dvd_sub hdvd hk)
  unfold upperEnd
  omega

/-- The lower end lies at least halfway to a smaller magnitude. -/
theorem le_lowerEnd (h : m < k) : 2 * k + 2 * m ≤ lowerEnd k := by
  -- Magnitudes of the same grain are a grain apart.
  have happart {g : ℕ} (hdvd : g ∣ m) (hdvd' : g ∣ k) : g ≤ k - m :=
    Nat.le_of_dvd (by omega) (Nat.dvd_sub hdvd' hdvd)
  unfold lowerEnd
  split
  · next hnarrow =>
    obtain ⟨hgrain, hpower⟩ := grain_of_narrowBelow hnarrow
    have hpos : 1 * grain (k - 1) ≤ twoTo 52 * grain (k - 1) :=
      Nat.mul_le_mul_right _ (Nat.two_pow_pos 52)
    by_cases hdvd : grain (k - 1) ∣ m
    · have hgap := happart hdvd ((Nat.dvd_mul_left _ _).trans (hgrain ▸ hk))
      omega
    · have hlt := (lt_of_not_grain_dvd hm hdvd).1
      omega
  · next hwide =>
    by_cases hdvd : grain k ∣ m
    · have hgap := happart hdvd hk
      omega
    · -- Then the magnitude lies below a power of two, and `k` above it by a grain.
      obtain ⟨hlt, hle⟩ := lt_of_not_grain_dvd hm hdvd
      have hne : k ≠ twoTo 52 * grain k := by
        intro hpower
        have hlog : 52 < k.log2 := by
          by_contra hsmall
          refine hdvd ?_
          rw [grain, show k.log2 - 52 = 0 by omega]
          exact Nat.one_dvd m
        rw [mul_grain hlog.le] at hpower
        rw [narrowBelow, ← hpower] at hwide
        simp [hlog] at hwide
      have hgap : grain k ≤ k - twoTo 52 * grain k :=
        Nat.le_of_dvd (by omega) (Nat.dvd_sub hk (Nat.dvd_mul_left _ _))
      omega

end

/-! ## Decimals in the interval -/

/-- A decimal is so many units, over the denominator. -/
def numerator (d : Decimal) : ℕ := d.digits * tenTo d.exponent.toNat * one

def denominator (d : Decimal) : ℕ := tenTo (-d.exponent).toNat

/-- The exact value of a decimal. -/
def value (d : Decimal) : ℚ := d.digits * 10 ^ d.exponent

theorem denominator_pos (d : Decimal) : 0 < d.denominator := Nat.pow_pos (by decide)

theorem ratio_decimal (negative : Bool) (d : Decimal) :
    ratio negative d.numerator d.denominator = signFactor negative * d.value :=
  ratio_tenTo negative d.digits d.exponent

theorem compareQuarters_eq (d : Decimal) (bound : ℕ) :
    d.compareQuarters bound = compare (4 * d.numerator) (bound * d.denominator) := by
  rw [compareQuarters, quarter, numerator, denominator, Nat.mul_left_comm 4]

theorem readsBack_iff {k : ℕ} {d : Decimal} :
    readsBack k d = true ↔
      (lowerEnd k * d.denominator ≤ 4 * d.numerator ∧
        4 * d.numerator ≤ upperEnd k * d.denominator) ∧
      (4 * d.numerator = lowerEnd k * d.denominator ∨
        4 * d.numerator = upperEnd k * d.denominator → significand k % 2 = 0) := by
  have heven : endsIncluded k = true ↔ significand k % 2 = 0 := by
    rw [endsIncluded, beq_iff_eq, significand]
  unfold readsBack
  simp only [compareQuarters_eq, Bool.and_eq_true, Bool.or_eq_true, beq_iff_eq, heven,
    Nat.compare_eq_gt, Nat.compare_eq_lt, Nat.compare_eq_eq]
  omega

/-- **What is tested rounds to the number.** -/
theorem nearest_of_readsBack {k : ℕ} {d : Decimal} (hk : grain k ∣ k) (h : readsBack k d = true) :
    nearest d.numerator d.denominator = k := by
  obtain ⟨⟨hlow, hhigh⟩, heven⟩ := readsBack_iff.1 h
  have hm := grain_dvd_nearest d.numerator d.denominator
  have hnear := (offset_nearest_le (n := d.numerator) d.denominator_pos hk).1
  have hodd := nearest_of_offset_eq (n := d.numerator) d.denominator_pos hk
  by_contra hne
  generalize nearest d.numerator d.denominator = m at hne hm hnear hodd
  -- The other magnitude is no farther only from halfway, and that is an end then.
  have hend : offset k d.numerator d.denominator = offset m d.numerator d.denominator ∧
      (4 * d.numerator = lowerEnd k * d.denominator ∨
        4 * d.numerator = upperEnd k * d.denominator) := by
    unfold offset at hnear ⊢
    rcases Nat.lt_or_gt_of_ne hne with hlt | hlt
    · have hhalf := Nat.mul_le_mul_right d.denominator (le_lowerEnd hk hm hlt)
      have hproduct := Nat.mul_lt_mul_of_pos_right hlt d.denominator_pos
      rw [Nat.add_mul, Nat.mul_assoc, Nat.mul_assoc] at hhalf
      omega
    · have hhalf := Nat.mul_le_mul_right d.denominator (upperEnd_le hk hm hlt)
      have hproduct := Nat.mul_lt_mul_of_pos_right hlt d.denominator_pos
      rw [Nat.add_mul, Nat.mul_assoc, Nat.mul_assoc] at hhalf
      omega
  have hsignificand := (hodd hend.1 (Ne.symm hne)).2
  have := heven hend.2
  omega

/-! ## What is taken -/

theorem tenTo_eq (n : ℕ) : tenTo n = Nat.pow 5 n * twoTo n := Nat.mul_pow 5 2 n

theorem readsBack_of_exact {k : ℕ} {d : Decimal} (hk : 0 < k)
    (h : d.numerator = k * d.denominator) : readsBack k d = true := by
  have hgrain := grain_pos k
  have hlow : lowerEnd k * d.denominator < 4 * k * d.denominator :=
    Nat.mul_lt_mul_of_pos_right (by unfold lowerEnd; split <;> omega) d.denominator_pos
  have hhigh : 4 * k * d.denominator < upperEnd k * d.denominator :=
    Nat.mul_lt_mul_of_pos_right (by unfold upperEnd; omega) d.denominator_pos
  rw [Nat.mul_assoc] at hlow hhigh
  rw [readsBack_iff, h]
  omega

theorem numerator_eq {k i : ℕ} {d : Decimal} (hone : one = twoTo i)
    (hdigits : d.digits = k * Nat.pow 5 i) (hexponent : d.exponent = -i) :
    d.numerator = k * d.denominator := by
  rw [numerator, denominator, hdigits, hexponent, Int.neg_neg, Int.toNat_natCast,
    Int.toNat_neg_natCast, show tenTo 0 = 1 from rfl, Nat.mul_one, tenTo_eq, hone, Nat.mul_assoc]

theorem nearer_eq (tie : Tie) (k : ℕ) (lower upper : Decimal) :
    nearer tie k lower upper = lower ∨ nearer tie k lower upper = upper := by
  -- Unfolded before it is applied: the kernel would evaluate the comparison, with a unit of
  -- a thousand bits, sooner than compare the two sides.
  have hdef : nearer = nearer := rfl
  conv at hdef => rhs; delta nearer
  rw [hdef]
  beta_reduce
  generalize compareQuarters _ _ = order
  cases order with
  | lt => exact .inr rfl
  | gt => exact .inl rfl
  | eq =>
    cases tie with
    | up => exact .inr rfl
    | toEven => exact ite_eq_or_eq _ _ _

theorem readsBack_of_onGrid? {tie : Tie} {k : ℕ} {e : ℤ} {d : Decimal}
    (h : onGrid? tie k e = some d) : readsBack k d = true := by
  have hdef : onGrid? = onGrid? := rfl
  conv at hdef => rhs; delta onGrid?
  rw [hdef] at h
  simp only at h
  generalize (⟨gridFloor k e, e⟩ : Decimal) = lower at h
  generalize (⟨gridFloor k e + 1, e⟩ : Decimal) = upper at h
  cases hlower : readsBack k lower <;> cases hupper : readsBack k upper <;>
    simp only [hlower, hupper, Option.some.injEq, reduceCtorEq] at h
  · rw [← h, hupper]
  · rw [← h, hlower]
  · rcases nearer_eq tie k lower upper with heq | heq
    · rw [← h, heq, hlower]
    · rw [← h, heq, hupper]

theorem value_strip (fuel : ℕ) (d : Decimal) : (strip fuel d).value = d.value := by
  induction fuel generalizing d with
  | zero => rfl
  | succ fuel ih =>
    rw [strip]
    split
    · next h =>
      obtain ⟨i, hi⟩ := Nat.dvd_of_mod_eq_zero h.2
      rw [ih, value, value, hi, Nat.mul_div_cancel_left i (by decide), zpow_add₀ (by norm_num)]
      push_cast
      ring
    · rfl

theorem exists_shortest (tie : Tie) {k : ℕ} (hk : 0 < k) :
    ∃ d, readsBack k d = true ∧ (shortest tie k).value = d.value := by
  refine ⟨_, ?_, value_strip 17 _⟩
  rcases hfound : (List.range 17).findSome? (fun (i : ℕ) => onGrid? tie k (leadingExponent k - i))
    with _ | d
  · have hone : one = twoTo 1074 := by decide +kernel
    exact readsBack_of_exact hk (numerator_eq hone rfl rfl)
  · obtain ⟨i, -, hi⟩ := List.exists_of_findSome?_eq_some hfound
    exact readsBack_of_onGrid? hi

/-- **The shown decimal is read back**: a number that is not zero is the one nearest to it. -/
theorem isNearest_shortest (tie : Tie) (negative : Bool) {m : Magnitude} (hm : 0 < m.units) :
    IsNearest (signFactor negative * (shortest tie m.units).value) (finite negative m) ∧
      |signFactor negative * (shortest tie m.units).value| < overflow := by
  obtain ⟨d, hd, hvalue⟩ := exists_shortest tie hm
  have hnearest := nearest_of_readsBack m.grain_dvd hd
  have hlt : nearest d.numerator d.denominator < limit := by
    rw [hnearest]
    exact m.lt_limit
  have hround : ofRatio negative d.numerator d.denominator = finite negative m := by
    rw [ofRatio_eq_finite hlt, finite.injEq]
    exact ⟨rfl, Magnitude.ext hnearest⟩
  rw [hvalue, ← ratio_decimal, ← hround]
  exact ⟨isNearest_ofRatio d.denominator_pos hlt,
    (nearest_lt_limit_iff d.denominator_pos negative).1 hlt⟩

end Decimal

end MetricStream
