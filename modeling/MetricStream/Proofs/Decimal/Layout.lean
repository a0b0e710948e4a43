/-
A number's text spells the number.

However the digits of a decimal are laid out, with the point among them, zeros filled in
or an exponent behind, they make a numeral of the language of numbers, of exactly the
decimal's value (`shows_scientific`, `shows_positional`). With the shortest decimal, which
rounds to the number it was taken from, the text of a finite number is therefore read back
as that number, the sign of zero included (`read?_text`).
-/
import MetricStream.Decimal.Layout
import MetricStream.Proofs.Decimal.Shortest
import MetricStream.Proofs.Duration.Monotone

namespace MetricStream

namespace Binary64.Numeral

/-- There is a digit on either side of a point, and the whole part has no zero in front of
other digits. -/
structure Regular (n : Numeral) : Prop where
  whole : n.whole = ['0'] ∨ ∃ c cs, n.whole = c :: cs ∧ c ≠ '0'
  fraction : n.fraction ≠ some []

theorem value_of_digits {n : Numeral} {digits : ℕ} {e : ℤ} (zeros : ℕ)
    (hdigits : Nat.ofDigitChars 10 n.digits 0 = digits * tenTo zeros)
    (he : Exponent.value n.exponent - (n.fraction.getD []).length = e - zeros) :
    n.value = digits * 10 ^ e := by
  rw [n.value_eq, hdigits, he, zpow_sub₀ (by norm_num), zpow_natCast]
  push_cast [Duration.cast_tenTo]
  field_simp

end Binary64.Numeral

namespace Decimal

open Binary64
open Duration (Sign isDigit_of_mem_zeros)

/-! ## Digits -/

theorem isDigit_of_mem_digits {n : ℕ} : ∀ c ∈ Nat.toDigits 10 n, c.isDigit = true :=
  fun _ => Nat.isDigit_of_mem_toDigits (by decide) (by decide)

theorem head_digits {n : ℕ} (hn : 0 < n) : ∃ c cs, Nat.toDigits 10 n = c :: cs ∧ c ≠ '0' := by
  have hdigit : ∀ d < 10, 0 < d → Nat.digitChar d ≠ '0' := by decide
  induction n using Nat.strongRecOn with
  | ind n ih =>
    rw [Nat.toDigits_eq_if (by decide)]
    split
    · next hsmall => exact ⟨_, [], rfl, hdigit n hsmall hn⟩
    · next hlarge =>
      obtain ⟨c, cs, hcons, hc⟩ := ih (n / 10) (by omega) (by omega)
      exact ⟨c, cs ++ [(n % 10).digitChar], by rw [hcons, List.cons_append], hc⟩

theorem ofDigitChars_zero : Nat.ofDigitChars 10 ['0'] 0 = 0 := rfl

/-! ## Layouts of digits -/

namespace Layout

/-- The exponent behind the digits. -/
def exponentAt (l : Layout) (lead : ℤ) : Exponent where
  mark := 'e'
  sign := if lead < 0 then some .minus else if l.plusSign then some .plus else none
  digits := Nat.toDigits 10 lead.natAbs
  mark_eq := .inl rfl
  ne_nil := List.ne_nil_of_length_pos Nat.length_toDigits_pos
  digits_digits := isDigit_of_mem_digits

theorem value_exponentAt (l : Layout) (lead : ℤ) : Exponent.value (some (l.exponentAt lead)) = lead := by
  have hminus : (l.exponentAt lead).sign = some .minus ↔ lead < 0 := by
    simp only [exponentAt]
    split_ifs <;> simp_all
  have hdigits : Nat.ofDigitChars 10 (l.exponentAt lead).digits 0 = lead.natAbs :=
    Nat.ofDigitChars_ten_toDigits
  simp only [Exponent.value, hminus, hdigits]
  split <;> omega

/-- The text is a regular numeral of these digits, the leading one at this exponent. -/
def Shows (text digits : List Char) (lead : ℤ) : Prop :=
  ∃ n : Numeral, n.text = text ∧ n.Regular ∧
    n.value = Nat.ofDigitChars 10 digits 0 * 10 ^ (lead + 1 - digits.length)

section

variable {digits : List Char} (hdigits : ∀ c ∈ digits, c.isDigit = true)
  (hhead : ∃ c cs, digits = c :: cs ∧ c ≠ '0') {lead : ℤ}
include hdigits hhead

theorem shows_scientific (l : Layout) : Shows (l.scientific digits lead) digits lead := by
  obtain ⟨c, cs, rfl, hc⟩ := hhead
  have hwhole : ∀ d ∈ [c], d.isDigit = true := by simpa using hdigits c (by simp)
  have hrest : ∀ d ∈ cs, d.isDigit = true := fun d hd => hdigits d (by simp [hd])
  have hsign : Sign.text (l.exponentAt lead).sign =
      if lead < 0 then ['-'] else if l.plusSign then ['+'] else [] := by
    simp only [exponentAt]
    split_ifs <;> rfl
  have hexponent := l.value_exponentAt lead
  cases cs with
  | nil =>
    refine ⟨⟨[c], none, some (l.exponentAt lead), hwhole, by simp, .inl (by simp)⟩, ?_,
      ⟨.inr ⟨c, [], rfl, hc⟩, by simp⟩, Numeral.value_of_digits 0 (Nat.mul_one _).symm ?_⟩
    · simp only [Numeral.text, Exponent.text, hsign, scientific]
      rfl
    · simp only [hexponent, Option.getD_none, List.length_nil, List.length_cons]
      omega
  | cons d ds =>
    refine ⟨⟨[c], some (d :: ds), some (l.exponentAt lead), hwhole, hrest, .inl (by simp)⟩, ?_,
      ⟨.inr ⟨c, [], rfl, hc⟩, by simp⟩, Numeral.value_of_digits 0 (Nat.mul_one _).symm ?_⟩
    · simp only [Numeral.text, Exponent.text, hsign, scientific]
      rfl
    · simp only [hexponent, Option.getD_some, List.length_cons]
      omega

theorem shows_below_one (hneg : lead < 0) :
    Shows ('0' :: '.' :: (List.replicate (-lead - 1).toNat '0' ++ digits)) digits lead := by
  obtain ⟨c, cs, hcons, -⟩ := hhead
  have hfraction : ∀ c ∈ List.replicate (-lead - 1).toNat '0' ++ digits, c.isDigit = true :=
    fun c hc => (List.mem_append.1 hc).elim isDigit_of_mem_zeros (hdigits c)
  refine ⟨⟨['0'], some _, none, by simp, hfraction, .inl (by simp)⟩, ?_,
    ⟨.inl rfl, by simp [hcons]⟩, Numeral.value_of_digits 0 ?_ ?_⟩
  · simp [Numeral.text, Duration.pointed, Exponent.text]
  · simp only [Numeral.digits, Option.getD_some, Nat.ofDigitChars_append, ofDigitChars_zero,
      Nat.ofDigitChars_replicate_zero, Nat.mul_zero, tenTo, Nat.pow_eq, Nat.pow_zero, Nat.mul_one]
  · simp only [Exponent.value, Option.getD_some, List.length_append, List.length_replicate]
    omega

theorem shows_filled (hpos : 0 ≤ lead) (hshort : digits.length ≤ lead.toNat + 1) :
    Shows (digits ++ List.replicate (lead.toNat + 1 - digits.length) '0' ++ ['.', '0']) digits lead := by
  obtain ⟨c, cs, hcons, hc⟩ := hhead
  generalize hzeros : lead.toNat + 1 - digits.length = zeros
  have hwhole : ∀ c ∈ digits ++ List.replicate zeros '0', c.isDigit = true :=
    fun c hc => (List.mem_append.1 hc).elim (hdigits c) isDigit_of_mem_zeros
  refine ⟨⟨_, some ['0'], none, hwhole, by simp, .inr (by simp)⟩, ?_,
    ⟨.inr ⟨c, cs ++ List.replicate zeros '0', by simp [hcons], hc⟩, by simp⟩,
    Numeral.value_of_digits (zeros + 1) ?_ ?_⟩
  · simp [Numeral.text, Duration.pointed, Exponent.text]
  · have hlast (n : ℕ) : Nat.ofDigitChars 10 ['0'] n = 10 * n := rfl
    simp only [Numeral.digits, Option.getD_some, Nat.ofDigitChars_append, hlast,
      Nat.ofDigitChars_replicate_zero, tenTo, Nat.pow_eq]
    ring
  · simp only [Exponent.value, Option.getD_some, List.length_cons, List.length_nil]
    omega

theorem shows_around (hpos : 0 ≤ lead) (hlong : lead.toNat + 1 < digits.length) :
    Shows (digits.take (lead.toNat + 1) ++ '.' :: digits.drop (lead.toNat + 1)) digits lead := by
  obtain ⟨c, cs, hcons, hc⟩ := hhead
  have hfraction : ∀ c ∈ digits.drop (lead.toNat + 1), c.isDigit = true :=
    fun c hc => hdigits c (List.mem_of_mem_drop hc)
  refine ⟨⟨digits.take (lead.toNat + 1), some (digits.drop (lead.toNat + 1)), none,
    fun d hd => hdigits d (List.mem_of_mem_take hd), hfraction, .inl (by simp [hcons])⟩, ?_,
    ⟨.inr ⟨c, cs.take lead.toNat, by simp [hcons], hc⟩, by simp; omega⟩,
    Numeral.value_of_digits 0 ?_ ?_⟩
  · simp [Numeral.text, Duration.pointed, Exponent.text]
  · simp only [Numeral.digits, Option.getD_some, List.take_append_drop, tenTo, Nat.pow_eq, Nat.pow_zero, Nat.mul_one]
  · simp only [Exponent.value, Option.getD_some, List.length_drop]
    omega

/-- Digits with the point where it belongs are a numeral. -/
theorem shows_positional : Shows (positional digits lead) digits lead := by
  unfold positional
  split
  · next hneg => exact shows_below_one hdigits hhead hneg
  next hpos =>
  by_cases hshort : digits.length ≤ lead.toNat + 1
  · have hfilled := shows_filled hdigits hhead (Int.not_lt.1 hpos) hshort
    rw [List.append_assoc] at hfilled
    simp only [List.take_of_length_le hshort, List.drop_of_length_le hshort, if_true,
      List.append_assoc]
    exact hfilled
  · have hdrop : digits.drop (lead.toNat + 1) ≠ [] := by
      rwa [Ne, List.drop_eq_nil_iff]
    have haround := shows_around hdigits hhead (Int.not_lt.1 hpos) (Nat.lt_of_not_le hshort)
    simp only [if_neg hdrop, show lead.toNat + 1 - digits.length = 0 by omega, List.replicate_zero,
      List.append_nil]
    exact haround

end

/-- **A magnitude's text is a numeral** of its decimal's value. -/
theorem exists_magnitude (l : Layout) (m : Magnitude) :
    ∃ n : Numeral, n.text = l.magnitude m ∧ n.Regular ∧
      n.value = if m.units = 0 then 0 else (shortest l.tie m.units).value := by
  unfold magnitude
  split
  · exact ⟨⟨['0'], some ['0'], none, by simp, by simp, .inl (by simp)⟩, rfl,
      ⟨.inl rfl, by simp⟩, by simp [Numeral.value_eq, Numeral.digits, Nat.ofDigitChars_cons]⟩
  next hunits =>
  have hpos : 0 < (shortest l.tie m.units).digits := by
    by_contra hnone
    obtain ⟨hnearest, -⟩ := isNearest_shortest l.tie false (Nat.pos_of_ne_zero hunits)
    rw [value, Nat.eq_zero_of_not_pos hnone, Nat.cast_zero, zero_mul, mul_zero] at hnearest
    have hzero : (finite false .zero).value = 0 := zero_div _
    have hsame := value_eq_iff.1 ((hnearest.value_eq rfl hzero).trans hzero.symm)
    exact hunits (Int.natCast_inj.1 hsame)
  generalize shortest l.tie m.units = d at hpos
  have hvalue : d.value = Nat.ofDigitChars 10 (Nat.toDigits 10 d.digits) 0 *
      10 ^ (d.exponent + (Nat.toDigits 10 d.digits).length - 1 + 1 -
        (Nat.toDigits 10 d.digits).length) := by
    rw [Nat.ofDigitChars_ten_toDigits, value]
    congr 2
    omega
  rw [hvalue]
  simp only
  split
  · exact shows_positional isDigit_of_mem_digits (head_digits hpos)
  · exact shows_scientific isDigit_of_mem_digits (head_digits hpos) l

/-! ## Reading back -/

theorem isNearest_value {x : Binary64} (hx : x.isFinite = true) : IsNearest x.value x where
  finite := hx
  nearest y _ := by
    rw [sub_self, abs_zero]
    exact abs_nonneg _
  even y _ htie hne := by
    rw [sub_self, abs_zero, abs_eq_zero, sub_eq_zero] at htie
    exact absurd htie hne

/-- A number is spelled with a minus sign or none. -/
def signOf (negative : Bool) : Option Sign := if negative then some .minus else none

/-- **A finite number's text is a spelling**, which is read as the number. -/
theorem exists_spelling (l : Layout) (negative : Bool) (m : Magnitude) :
    ∃ n : Numeral, n.Regular ∧
      (l.text (.finite negative m)).toList = Sign.text (signOf negative) ++ n.text ∧
      (⟨signOf negative, .decimal n⟩ : Spelling).literal.value = .finite negative m := by
  obtain ⟨n, htext, hregular, hvalue⟩ := l.exists_magnitude m
  refine ⟨n, hregular, ?_, ?_⟩
  · rw [htext, text, String.toList_ofList]
    cases negative <;> rfl
  have hsign : Spelling.isNegative ⟨signOf negative, .decimal n⟩ = negative := by
    cases negative <;> rfl
  have hspelt : Spelling.value? ⟨signOf negative, .decimal n⟩ =
      some (signFactor negative * n.value) := by
    rw [Spelling.value?, hsign]
  have hnearest : IsNearest (signFactor negative * n.value) (finite negative m) ∧
      |signFactor negative * n.value| < overflow := by
    rw [hvalue]
    split
    · next hunits =>
      have hzero : (finite negative m).value = 0 := by
        rw [Binary64.value, units_finite, hunits, Nat.cast_zero, mul_zero, Int.cast_zero, zero_div]
      rw [mul_zero, ← hzero]
      refine ⟨isNearest_value rfl, ?_⟩
      rw [hzero, abs_zero, overflow, sub_pos]
      exact pow_lt_pow_right₀ (by norm_num) (by norm_num)
    · next hunits => exact isNearest_shortest l.tie negative (Nat.pos_of_ne_zero hunits)
  exact ((Spelling.eq_iff hspelt hnearest.2).2 ⟨hnearest.1, hsign.symm⟩).symm

/-- **The text of a finite number is read back** as the number. -/
theorem read?_text (l : Layout) {x : Binary64} (hx : x.isFinite = true) :
    read? (l.text x) = some x := by
  rcases x with ⟨negative, m⟩ | s | _
  case infinite => cases hx
  case nan => cases hx
  obtain ⟨n, -, htext, hvalue⟩ := l.exists_spelling negative m
  have hread := Spelling.read?_text ⟨signOf negative, .decimal n⟩
  rw [Spelling.text, Body.text, ← htext] at hread
  rw [read?, hread, Option.map_some, hvalue]

end Layout

end Decimal

end MetricStream
