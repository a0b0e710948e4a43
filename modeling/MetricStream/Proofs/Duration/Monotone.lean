/-
More is longer.

The digits of a group that are read are its decimal, rounded down to eighteen places
(`shortened_value_eq_floor`). So is what they come to in nanoseconds, and the limit cuts
off the longest: each step keeps the order of decimals, hence the whole does. Decimals
that are written differently and worth the same are read alike (`read_monotone`).
-/
import MetricStream.Proofs.Duration.Exact
import MetricStream.Proofs.Duration.Sums

namespace MetricStream

namespace Duration

/-- One reading is no longer than the other. What is out of range is longer than
every duration. -/
inductive NoLonger : Except ReadError Duration → Except ReadError Duration → Prop where
  | both {d e : Duration} (h : d.nanos ≤ e.nanos) : NoLonger (.ok d) (.ok e)
  | beyond (d : Duration) (typed : String) : NoLonger (.ok d) (.error (.outOfRange typed))
  | bothBeyond (typed typed' : String) :
    NoLonger (.error (.outOfRange typed)) (.error (.outOfRange typed'))

/-! ## The digits that are read -/

theorem isDigit_of_mem_zeros {n : ℕ} {c : Char} (h : c ∈ List.replicate n '0') : c.isDigit = true := by
  rw [List.eq_of_mem_replicate h]
  decide

theorem fractionValue_zeros (n : ℕ) : fractionValue (List.replicate n '0') = 0 := by
  rw [fractionValue_eq, Nat.ofDigitChars_replicate_zero, Nat.mul_zero, Nat.cast_zero, zero_div]

theorem fractionValue_append_zeros (digits : List Char) (n : ℕ) :
    fractionValue (digits ++ List.replicate n '0') = fractionValue digits := by
  rw [fractionValue_append, fractionValue_zeros, zero_div, add_zero]

namespace Spelling

/-- The digits that are not read are worth less than one in the eighteenth place. -/
theorem value_lt (s : Spelling) :
    s.value * tenTo fractionDigits < s.shortened.value * tenTo fractionDigits + 1 := by
  have hpos : (tenTo fractionDigits : ℚ) ≠ 0 := by
    rw [cast_tenTo]
    positivity
  rcases Nat.le_total (s.fraction.getD []).length fractionDigits with hlength | hlength
  · rw [s.value_of_length hlength]
    exact lt_add_one _
  · have hrest : fractionValue ((s.fraction.getD []).drop fractionDigits) < 1 :=
      fractionValue_lt_one fun c hc => s.fraction_digits c (List.mem_of_mem_drop hc)
    rw [s.value_eq, List.length_take_of_le hlength, add_mul, div_mul_cancel₀ _ hpos]
    linarith

theorem exists_places (s : Spelling) : ∃ n : ℕ, s.shortened.value * tenTo fractionDigits = n := by
  have hle : ((s.fraction.getD []).take fractionDigits).length ≤ fractionDigits :=
    List.length_take_le _ _
  rw [value_shortened, fractionValue_eq]
  generalize ((s.fraction.getD []).take fractionDigits) = digits at hle
  have hpos : (tenTo digits.length : ℚ) ≠ 0 := by
    rw [cast_tenTo]
    positivity
  obtain ⟨more, hmore⟩ := Nat.exists_eq_add_of_le hle
  refine ⟨Nat.ofDigitChars 10 s.whole 0 * tenTo fractionDigits +
    Nat.ofDigitChars 10 digits 0 * tenTo more, ?_⟩
  rw [hmore]
  push_cast [cast_tenTo, pow_add] at hpos ⊢
  field_simp

/-- **What is read is the decimal, rounded down to eighteen places.** -/
theorem shortened_value_eq_floor (s : Spelling) :
    s.shortened.value = ⌊s.value * tenTo fractionDigits⌋₊ / tenTo fractionDigits := by
  have hpos : (0 : ℚ) < tenTo fractionDigits := by
    rw [cast_tenTo]
    positivity
  have hle : s.shortened.value * tenTo fractionDigits ≤ s.value * tenTo fractionDigits :=
    mul_le_mul_of_nonneg_right s.shortened_le hpos.le
  have hlt := s.value_lt
  obtain ⟨n, hn⟩ := s.exists_places
  rw [hn] at hle hlt
  have hfloor : ⌊s.value * tenTo fractionDigits⌋₊ = n :=
    (Nat.floor_eq_iff ((Nat.cast_nonneg n).trans hle)).2 ⟨hle, hlt⟩
  rw [hfloor, ← hn, mul_div_cancel_right₀ _ hpos.ne']

theorem shortened_nanos_mono {s t : Spelling} (hunit : s.unit = t.unit) (h : s.value ≤ t.value) :
    s.shortened.nanos ≤ t.shortened.nanos := by
  have hvalue : s.shortened.value ≤ t.shortened.value := by
    rw [shortened_value_eq_floor, shortened_value_eq_floor]
    gcongr
  have hscale : s.shortened.unit = t.shortened.unit := hunit
  rw [nanos, nanos, hscale]
  exact Nat.floor_le_floor (mul_le_mul_of_nonneg_right hvalue (Nat.cast_nonneg _))

end Spelling

/-! ## Other ways to write a decimal -/

namespace Term

/-- The same group with zeros in front, a point, and zeros at the end. -/
def padded (t : Term) (front back : ℕ) : Term where
  whole := List.replicate front '0' ++ t.whole
  fraction := some (t.fraction.getD [] ++ List.replicate back '0')
  unit := t.unit
  name := t.name
  whole_digits := fun c hc => (List.mem_append.1 hc).elim isDigit_of_mem_zeros (t.whole_digits c)
  fraction_digits := fun c hc => (List.mem_append.1 hc).elim (t.fraction_digits c) isDigit_of_mem_zeros
  name_mem := t.name_mem
  digit := t.digit.imp (List.append_ne_nil_of_right_ne_nil _) (List.append_ne_nil_of_left_ne_nil · _)

theorem value_padded (t : Term) (front back : ℕ) : (t.padded front back).value = t.value := by
  have hwhole : Nat.ofDigitChars 10 (List.replicate front '0' ++ t.whole) 0 =
      Nat.ofDigitChars 10 t.whole 0 := by
    rw [Nat.ofDigitChars_append, Nat.ofDigitChars_replicate_zero, Nat.mul_zero]
  exact congrArg₂ _ (congrArg _ hwhole) (fractionValue_append_zeros _ _)

theorem groups (t : Term) : Groups (String.ofList t.text) [t] := ⟨by simp, by simp⟩

theorem readNanos_alone (t : Term) : (Expression.ofTerms [t]).readNanos = t.shortened.nanos := by
  rw [Expression.readNanos_eq, Expression.ofTerms, List.map_singleton, List.sum_singleton]

end Term

/-- **More is longer.** Of two groups in the same unit the one with the smaller decimal
is read as no longer than the other, out of range being longer than every duration. So
decimals that are worth the same are read alike, however they are written: with zeros in
front or at the end, with a point and nothing after it, or with nothing before it. -/
theorem read_monotone :
    (∀ s t : Term, s.unit = t.unit → s.value ≤ t.value →
      NoLonger (read (String.ofList s.text)) (read (String.ofList t.text))) ∧
    (∀ s t : Term, s.unit = t.unit → s.value = t.value →
      (∀ d, read (String.ofList s.text) = .ok d ↔ read (String.ofList t.text) = .ok d) ∧
      (read (String.ofList s.text) = .error (.outOfRange (String.ofList s.text)) ↔
        read (String.ofList t.text) = .error (.outOfRange (String.ofList t.text)))) ∧
    (∀ (t : Term) front back,
      (t.padded front back).unit = t.unit ∧ (t.padded front back).value = t.value) := by
  refine ⟨fun s t hunit hle => ?_, fun s t hunit heq => ?_, fun t front back => ⟨rfl, t.value_padded _ _⟩⟩
  · have hnanos := Spelling.shortened_nanos_mono hunit hle
    rw [s.groups.read_eq, t.groups.read_eq, s.readNanos_alone, t.readNanos_alone]
    split <;> split
    · exact .both hnanos
    · exact .beyond _ _
    · omega
    · exact .bothBeyond _ _
  · have hnanos : s.shortened.nanos = t.shortened.nanos :=
      Nat.le_antisymm (Spelling.shortened_nanos_mono hunit heq.le)
        (Spelling.shortened_nanos_mono hunit.symm heq.ge)
    refine ⟨fun d => ?_, ?_⟩
    · rw [s.groups.read_eq_ok, t.groups.read_eq_ok, s.readNanos_alone, t.readNanos_alone, hnanos]
    · rw [s.groups.read_eq_outOfRange, t.groups.read_eq_outOfRange, s.readNanos_alone,
        t.readNanos_alone, hnanos]

/-- A carry of twenty nines, two in a long form, and the unit in which it is too much. -/
theorem read_monotone_nines :
    let nines : Term := ⟨⟨['1'], some (List.replicate 20 '9'), .hour, ['h'], by simp,
      by simp, by decide⟩, by decide⟩
    let two : Term := ⟨⟨['2'], none, .hour, ['h'], by simp, by simp, by decide⟩, by decide⟩
    let most : Term := ⟨⟨"9999999999".toList, none, .hour, ['h'], by simp, by simp, by decide⟩, by decide⟩
    nines.value ≤ two.value ∧ two.value ≤ most.value ∧
    NoLonger (read "1.99999999999999999999h") (read "2h") ∧
    NoLonger (read "2h") (read "9999999999h") ∧
    (two.padded 3 4).text = "0002.0000h".toList ∧ read "0002.0000h" = .ok ⟨7200000000000⟩ ∧
    read "9999999999h" = .error (.outOfRange "9999999999h") := by
  intro nines two most
  obtain ⟨hmono, hsame, hpadded⟩ := read_monotone
  have hnines : nines.value ≤ two.value := by decide +kernel
  have hmost : two.value ≤ most.value := by decide +kernel
  have hread : read "2h" = .ok ⟨7200000000000⟩ := by decide +kernel
  obtain ⟨hunit, hvalue⟩ := hpadded two 3 4
  exact ⟨hnines, hmost, hmono nines two rfl hnines, hmono two most rfl hmost, by decide,
    ((hsame _ two hunit hvalue).1 _).2 hread, by decide +kernel⟩

end Duration

end MetricStream
