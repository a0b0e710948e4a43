/-
Sums of integers.

A sum that is itself a number is not rounded (`units_add`). Every integer up to
`2 ^ 53` is a number, so integers are added up exactly while their magnitudes
come to no more than that (`SmallIntegers.foldl`). One more than `2 ^ 53` is
none: it is rounded back.
-/
import Mathlib.Algebra.Order.Ring.Int
import MetricStream.Proofs.Binary64.Overflow

namespace MetricStream

namespace Binary64

/-- A number's exact value, in units of `2 ^ -1074`. -/
def units : Binary64 → Int
  | .finite s a => signed s a
  | .infinite _ => 0
  | .nan => 0

/-- The number is an integer. -/
def IsInteger (x : Binary64) : Prop := x.isFinite = true ∧ (one : Int) ∣ x.units

instance (x : Binary64) : Decidable x.IsInteger :=
  inferInstanceAs (Decidable (x.isFinite = true ∧ (one : Int) ∣ x.units))

/-- The exact sum of numbers, in units. -/
def total (xs : List Binary64) : Int := (xs.map units).sum

/-- The numbers are integers, and their magnitudes add up to `2 ^ 53` at most. -/
structure SmallIntegers (xs : List Binary64) : Prop where
  integer : ∀ x ∈ xs, x.IsInteger
  bounded : (xs.map (·.units.natAbs)).sum ≤ twoTo 53 * one

instance (xs : List Binary64) : Decidable (SmallIntegers xs) :=
  decidable_of_iff
    ((∀ x ∈ xs, x.IsInteger) ∧ (xs.map (·.units.natAbs)).sum ≤ twoTo 53 * one)
    ⟨fun h => ⟨h.1, h.2⟩, fun h => ⟨h.1, h.2⟩⟩

theorem total_append (xs ys : List Binary64) : total (xs ++ ys) = total xs + total ys := by
  rw [total, List.map_append, List.sum_append]
  rfl

theorem SmallIntegers.of_append {xs ys : List Binary64} (h : SmallIntegers (xs ++ ys)) :
    SmallIntegers xs ∧ SmallIntegers ys := by
  obtain ⟨hinteger, hle⟩ := h
  rw [List.forall_mem_append] at hinteger
  rw [List.map_append, List.sum_append] at hle
  exact ⟨⟨hinteger.1, by omega⟩, ⟨hinteger.2, by omega⟩⟩

/-! ## Sums that are numbers -/

theorem nearest_one (n : Nat) : nearest n 1 = roundDiv n (grain n) * grain n := by
  unfold nearest
  simp only [Nat.div_one, Nat.one_mul]

theorem nearest_of_grain_dvd {n : Nat} (h : grain n ∣ n) : nearest n 1 = n := by
  have hpos := grain_pos n
  have hround : roundDiv n (grain n) = n / grain n := by
    unfold roundDiv
    simp only [Nat.mod_eq_zero_of_dvd h]
    exact if_pos (.inl (by omega))
  rw [nearest_one, hround, Nat.div_mul_cancel h]

/-- **A sum that is a number is not rounded.** -/
theorem units_add {x y : Binary64} (hx : x.isFinite = true) (hy : y.isFinite = true)
    (hgrain : grain (x.units + y.units).natAbs ∣ (x.units + y.units).natAbs)
    (hlt : (x.units + y.units).natAbs < limit) :
    (x + y).isFinite = true ∧ (x + y).units = x.units + y.units := by
  rcases x with ⟨s, a⟩ | s | _
  case infinite => cases hx
  case nan => cases hx
  rcases y with ⟨t, b⟩ | t | _
  case infinite => cases hy
  case nan => cases hy
  have hadd : (finite s a : Binary64) + finite t b = addFinite s a t b := rfl
  rw [hadd, addFinite]
  simp only [units] at *
  generalize signed s a + signed t b = sum at *
  split
  · next hzero =>
    refine ⟨rfl, ?_⟩
    simp only [signed, Magnitude.zero, hzero]
    split <;> rfl
  · have hnearest := nearest_of_grain_dvd hgrain
    simp only [ofRatio, hnearest, hlt, dite_true, signed, decide_eq_true_eq]
    refine ⟨rfl, ?_⟩
    split <;> omega

/-! ## Integers -/

/-- An integer up to `2 ^ 53` is a number. -/
theorem grain_dvd_of_le {n : Nat} (hd : one ∣ n) (hle : n ≤ twoTo 53 * one) : grain n ∣ n := by
  obtain ⟨m, hn⟩ := hd
  rw [hn, Nat.mul_comm one] at hle ⊢
  have hm : m ≤ twoTo 53 := Nat.le_of_mul_le_mul_right hle one_pos
  rcases Nat.lt_or_eq_of_le hm with hlt | rfl
  · exact grain_dvd_of_lt hlt
  · -- The greatest is a power of two.
    have hpower : twoTo 53 * one = 1 * twoTo (53 + 1074) := by decide +kernel
    rw [hpower]
    exact grain_dvd_of_lt (by decide)

/-- **The sum of two integers** is exact up to `2 ^ 53`. -/
theorem IsInteger.add {x y : Binary64} (hx : x.IsInteger) (hy : y.IsInteger)
    (hle : (x.units + y.units).natAbs ≤ twoTo 53 * one) :
    (x + y).IsInteger ∧ (x + y).units = x.units + y.units := by
  have hdvd : (one : Int) ∣ x.units + y.units := Int.dvd_add hx.2 hy.2
  have hlt : twoTo 53 * one < limit := by decide +kernel
  obtain ⟨hfinite, hunits⟩ := units_add hx.1 hy.1
    (grain_dvd_of_le (Int.ofNat_dvd_left.1 hdvd) hle) (Nat.lt_of_le_of_lt hle hlt)
  exact ⟨⟨hfinite, hunits ▸ hdvd⟩, hunits⟩

/-- **The sum of many integers**, added up from the left, is exact if their
magnitudes add up to `2 ^ 53` at most. -/
theorem SmallIntegers.foldl {x : Binary64} {xs : List Binary64} (h : SmallIntegers (x :: xs)) :
    (xs.foldl (· + ·) x).IsInteger ∧ (xs.foldl (· + ·) x).units = total (x :: xs) := by
  induction xs generalizing x with
  | nil => exact ⟨h.integer x (by simp), (Int.add_zero _).symm⟩
  | cons y ys ih =>
    obtain ⟨hinteger, hle⟩ := h
    rw [List.forall_mem_cons, List.forall_mem_cons] at hinteger
    simp only [List.map_cons, List.sum_cons] at hle
    have hnatAbs := Int.natAbs_add_le x.units y.units
    obtain ⟨hadd, hunits⟩ := hinteger.1.add hinteger.2.1 (by omega)
    have hnext : SmallIntegers ((x + y) :: ys) := by
      refine ⟨List.forall_mem_cons.2 ⟨hadd, hinteger.2.2⟩, ?_⟩
      rw [List.map_cons, List.sum_cons, hunits]
      omega
    obtain ⟨hall, htotal⟩ := ih hnext
    refine ⟨hall, htotal.trans ?_⟩
    simp only [total, List.map_cons, List.sum_cons, hunits, Int.add_assoc]

end Binary64

end MetricStream
