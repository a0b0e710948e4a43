/-
What an expression is worth, and what it is read as.

A group is worth the exact decimal that it spells, in its unit, rounded down to
whole nanoseconds. Reading looks at eighteen digits after the point. For units
that are a power of ten of nanoseconds no later digit can make a difference,
but for minutes and hours it can: what the first eighteen digits leave over and
what the rest are worth may together be a nanosecond. `read_exact_iff` says that
an expression is read as what it is worth exactly if this happens in none of
its groups, or if it is too long either way.
-/
import Mathlib.Algebra.Order.Floor.Semifield
import Mathlib.Data.Rat.Floor
import Mathlib.Tactic.FieldSimp
import Mathlib.Tactic.Linarith
import Mathlib.Tactic.Positivity
import Mathlib.Tactic.Ring
import MetricStream.Proofs.Duration.Checked

namespace MetricStream

namespace Duration

/-! ## Decimals -/

/-- What digits after a point are worth. -/
def fractionValue : List Char → ℚ
  | [] => 0
  | c :: digits => (((c.toNat - '0'.toNat : ℕ) : ℚ) + fractionValue digits) / 10

theorem cast_tenTo (n : ℕ) : ((tenTo n : ℕ) : ℚ) = 10 ^ n := by
  simp [tenTo]

theorem fractionValue_eq (digits : List Char) :
    fractionValue digits = Nat.ofDigitChars 10 digits 0 / tenTo digits.length := by
  induction digits with
  | nil => simp [fractionValue]
  | cons c digits ih =>
    rw [fractionValue, ih, ofDigitChars_cons, List.length_cons]
    push_cast [cast_tenTo, pow_succ]
    field_simp

theorem fractionValue_append (digits more : List Char) :
    fractionValue (digits ++ more) =
      fractionValue digits + fractionValue more / tenTo digits.length := by
  induction digits with
  | nil => simp [fractionValue, tenTo]
  | cons c digits ih =>
    rw [List.cons_append, fractionValue, fractionValue, ih, List.length_cons]
    push_cast [cast_tenTo, pow_succ]
    field_simp
    ring

theorem fractionValue_nonneg (digits : List Char) : 0 ≤ fractionValue digits := by
  rw [fractionValue_eq]
  positivity

theorem fractionValue_lt_one {digits : List Char} (h : ∀ c ∈ digits, c.isDigit = true) :
    fractionValue digits < 1 := by
  have hpos : (0 : ℚ) < tenTo digits.length := by
    rw [cast_tenTo]
    positivity
  rw [fractionValue_eq, div_lt_one hpos]
  exact_mod_cast ofDigitChars_lt h

/-- Where the scale of a fraction is a multiple of the unit, less than one more in
its last place makes no whole nanosecond more. -/
theorem floor_of_dvd {whole n unit places scale : ℕ} (hscale : scale = unit * places) (hpos : 0 < scale)
    {rest : ℚ} (hnonneg : 0 ≤ rest) (hlt : rest < 1) :
    ⌊((whole : ℚ) + (n / scale + rest / scale)) * unit⌋₊ = n / places + whole * unit := by
  have hplaces : (places : ℚ) ≠ 0 := by
    rintro h
    simp_all
  have hunit : (unit : ℚ) ≠ 0 := by
    rintro h
    simp_all
  have hsplit : ((whole : ℚ) + (n / scale + rest / scale)) * unit =
      (n + rest) / (places : ℕ) + ((whole * unit : ℕ) : ℚ) := by
    rw [hscale]
    push_cast
    field_simp
    ring
  have hdigits : ⌊(n : ℚ) + rest⌋₊ = n := by
    rw [Nat.floor_eq_iff (by positivity)]
    constructor <;> linarith
  rw [hsplit, Nat.floor_add_natCast (by positivity), Nat.floor_div_natCast, hdigits]

/-! ## Groups -/

namespace Spelling

/-- The exact decimal. -/
def value (s : Spelling) : ℚ :=
  Nat.ofDigitChars 10 s.whole 0 + fractionValue (s.fraction.getD [])

/-- What the group is worth: the decimal in its unit, down to whole nanoseconds. -/
def nanos (s : Spelling) : ℕ := ⌊s.value * s.unit.nanos⌋₊

/-- The group with the digits after the point that are read. -/
def shortened (s : Spelling) : Spelling where
  whole := s.whole
  fraction := s.fraction.map (·.take fractionDigits)
  unit := s.unit
  name := s.name
  whole_digits := s.whole_digits
  fraction_digits := by
    intro c hc
    rcases hf : s.fraction with _ | digits
    · simp [hf] at hc
    · exact s.fraction_digits c (by
        rw [hf] at hc ⊢
        exact List.mem_of_mem_take hc)
  name_mem := s.name_mem

/-- What the digits past the eighteenth are worth, and what the others leave
over, are less than a nanosecond. -/
def Settled (s : Spelling) : Prop :=
  Int.fract (s.shortened.value * s.unit.nanos) +
    (s.value - s.shortened.value) * s.unit.nanos < 1

theorem fraction_shortened (s : Spelling) :
    s.shortened.fraction.getD [] = (s.fraction.getD []).take fractionDigits := by
  rcases hf : s.fraction with _ | digits <;> simp [shortened, hf]

theorem value_shortened (s : Spelling) :
    s.shortened.value =
      Nat.ofDigitChars 10 s.whole 0 + fractionValue ((s.fraction.getD []).take fractionDigits) := by
  rw [value, fraction_shortened]
  rfl

/-- The digits that are not read, and what they add. -/
theorem value_eq (s : Spelling) :
    s.value = s.shortened.value + fractionValue ((s.fraction.getD []).drop fractionDigits) /
      tenTo ((s.fraction.getD []).take fractionDigits).length := by
  rw [value_shortened, value, add_assoc, ← fractionValue_append, List.take_append_drop]

theorem shortened_nonneg (s : Spelling) : 0 ≤ s.shortened.value := by
  rw [value_shortened]
  have := fractionValue_nonneg ((s.fraction.getD []).take fractionDigits)
  positivity

theorem shortened_le (s : Spelling) : s.shortened.value ≤ s.value := by
  have hvalue := s.value_eq
  have hrest := fractionValue_nonneg ((s.fraction.getD []).drop fractionDigits)
  have hadded : 0 ≤ fractionValue ((s.fraction.getD []).drop fractionDigits) /
      tenTo ((s.fraction.getD []).take fractionDigits).length := by positivity
  linarith

/-- A group is read as what it is worth without the digits past the eighteenth. -/
theorem readNanos_group (s : Spelling) : s.group.readNanos = s.shortened.nanos := by
  have hpos : (tenTo ((s.fraction.getD []).take fractionDigits).length : ℚ) ≠ 0 := by
    rw [cast_tenTo]
    positivity
  have hsplit : s.shortened.value * s.unit.nanos =
      ((Nat.ofDigitChars 10 ((s.fraction.getD []).take fractionDigits) 0 * s.unit.nanos : ℕ) : ℚ) /
          (tenTo ((s.fraction.getD []).take fractionDigits).length : ℕ) +
        ((Nat.ofDigitChars 10 s.whole 0 * s.unit.nanos : ℕ) : ℚ) := by
    rw [value_shortened, fractionValue_eq]
    push_cast
    field_simp
    ring
  have hunit : s.shortened.unit = s.unit := rfl
  rw [nanos, hunit, hsplit, Nat.floor_add_natCast (by positivity), Nat.floor_div_eq_div, Group.readNanos,
    Nat.add_comm]
  rfl

theorem shortened_nanos_le (s : Spelling) : s.shortened.nanos ≤ s.nanos :=
  Nat.floor_le_floor (mul_le_mul_of_nonneg_right s.shortened_le (by positivity))

/-- A group is read as what it is worth exactly if the digits past the eighteenth
complete no nanosecond. -/
theorem shortened_nanos_eq_iff (s : Spelling) : s.shortened.nanos = s.nanos ↔ s.Settled := by
  have hscale : (0 : ℚ) ≤ s.unit.nanos := by positivity
  have hread : 0 ≤ s.shortened.value * s.unit.nanos := mul_nonneg s.shortened_nonneg hscale
  have hle : s.shortened.value * s.unit.nanos ≤ s.value * s.unit.nanos :=
    mul_le_mul_of_nonneg_right s.shortened_le hscale
  have hfloor : ((s.shortened.nanos : ℕ) : ℚ) = ⌊s.shortened.value * s.unit.nanos⌋ :=
    natCast_floor_eq_intCast_floor hread
  have hbelow := Int.floor_le (s.shortened.value * (s.unit.nanos : ℚ))
  have hsplit := Int.floor_add_fract (s.shortened.value * (s.unit.nanos : ℚ))
  rw [eq_comm, nanos, Nat.floor_eq_iff (hread.trans hle), Settled, sub_mul, hfloor]
  constructor
  · rintro ⟨-, habove⟩
    linarith
  · intro h
    constructor <;> linarith

theorem value_of_length (s : Spelling) (h : (s.fraction.getD []).length ≤ fractionDigits) :
    s.value = s.shortened.value := by
  rw [value_eq, List.drop_eq_nil_of_le h, fractionValue, zero_div, add_zero]

theorem settled_of_length (s : Spelling) (h : (s.fraction.getD []).length ≤ fractionDigits) :
    s.Settled := by
  rw [Settled, s.value_of_length h, sub_self, zero_mul, add_zero]
  exact Int.fract_lt_one _

/-- Where the unit is a power of ten of nanoseconds, no later digit counts. -/
theorem settled_of_dvd (s : Spelling) (h : s.unit.nanos ∣ tenTo fractionDigits) : s.Settled := by
  rcases Nat.le_total (s.fraction.getD []).length fractionDigits with hlength | hlength
  · exact s.settled_of_length hlength
  obtain ⟨places, hplaces⟩ := h
  have hread : ((s.fraction.getD []).take fractionDigits).length = fractionDigits :=
    List.length_take_of_le hlength
  have hrest : fractionValue ((s.fraction.getD []).drop fractionDigits) < 1 :=
    fractionValue_lt_one fun c hc => s.fraction_digits c (List.mem_of_mem_drop hc)
  have hvalue := s.value_eq
  have hshort := s.value_shortened
  rw [fractionValue_eq, hread] at hshort
  rw [hshort, hread, add_assoc] at hvalue
  rw [← add_zero (_ / _), ← zero_div ((tenTo fractionDigits : ℕ) : ℚ)] at hshort
  have hunit : s.shortened.unit = s.unit := rfl
  rw [← shortened_nanos_eq_iff, nanos, nanos, hunit, hshort, hvalue,
    floor_of_dvd hplaces (Nat.pow_pos (by decide)) le_rfl one_pos,
    floor_of_dvd hplaces (Nat.pow_pos (by decide)) (fractionValue_nonneg _) hrest]

theorem settled_of_unit (s : Spelling) (hminute : s.unit ≠ .minute) (hhour : s.unit ≠ .hour) :
    s.Settled := by
  refine s.settled_of_dvd ?_
  rcases hunit : s.unit <;> first | decide | contradiction

end Spelling

/-! ## Expressions -/

theorem sum_eq_iff_of_le {α : Type} {f g : α → ℕ} {l : List α} (h : ∀ a ∈ l, f a ≤ g a) :
    (l.map f).sum = (l.map g).sum ↔ ∀ a ∈ l, f a = g a := by
  induction l with
  | nil => simp
  | cons a l ih =>
    have hrest : ∀ b ∈ l, f b ≤ g b := fun b hb => h b (by simp [hb])
    have hfirst := h a (by simp)
    have hsum : (l.map f).sum ≤ (l.map g).sum := List.sum_le_sum hrest
    rw [List.map_cons, List.map_cons, List.sum_cons, List.sum_cons, List.forall_mem_cons, ← ih hrest]
    omega

namespace Expression

/-- What the expression is worth: what its groups are worth together. -/
def nanos (e : Expression) : ℕ := (e.terms.map (·.nanos)).sum

/-- So many nanoseconds, or out of range if these are too many. -/
def within (e : Expression) (nanos : ℕ) : Except ReadError Duration :=
  if nanos ≤ maxNanos then .ok ⟨nanos⟩ else .error (.outOfRange (String.ofList e.text))

theorem readNanos_eq (e : Expression) : e.readNanos = (e.terms.map (·.shortened.nanos)).sum := by
  simp only [readNanos, Spelling.readNanos_group]

theorem readNanos_le (e : Expression) : e.readNanos ≤ e.nanos := by
  rw [readNanos_eq]
  exact List.sum_le_sum fun t _ => t.shortened_nanos_le

theorem readNanos_eq_nanos_iff (e : Expression) : e.readNanos = e.nanos ↔ ∀ t ∈ e.terms, t.Settled := by
  rw [readNanos_eq, nanos, sum_eq_iff_of_le fun t _ => t.shortened_nanos_le]
  simp only [Spelling.shortened_nanos_eq_iff]

theorem within_eq_iff (e : Expression) {m n : ℕ} (h : m ≤ n) :
    e.within m = e.within n ↔ maxNanos < m ∨ m = n := by
  unfold within
  split <;> split
  · simp only [Except.ok.injEq, Duration.mk.injEq]
    omega
  · simp only [reduceCtorEq, false_iff]
    omega
  · omega
  · simp only [true_iff]
    omega

end Expression

/-- **Durations, but for the digits past the eighteenth, are exact.** An
expression without a minus is read as what its groups are worth with eighteen
digits after the point, each rounded down to whole nanoseconds, and is out of
range if that is too long. This is what it is worth with all its digits exactly
if in no group the digits past the eighteenth complete a nanosecond, or if it is
out of range anyway; and they complete none in any unit but minutes and hours,
nor where there are none. -/
theorem read_exact_iff (e : Expression) (hsign : e.sign ≠ some .minus) :
    read (String.ofList e.text) = e.within (e.terms.map (·.shortened.nanos)).sum ∧
    (read (String.ofList e.text) = e.within e.nanos ↔
      maxNanos < (e.terms.map (·.shortened.nanos)).sum ∨ ∀ t ∈ e.terms, t.Settled) ∧
    (∀ s : Spelling, s.shortened.nanos = s.nanos ↔ s.Settled) ∧
    (∀ s : Spelling, (s.unit ≠ .minute ∧ s.unit ≠ .hour) ∨
      (s.fraction.getD []).length ≤ fractionDigits → s.Settled) := by
  have hread : read (String.ofList e.text) = e.within e.readNanos := by
    rw [e.read_text, if_neg hsign]
    rfl
  refine ⟨by rw [hread, e.readNanos_eq], ?_, Spelling.shortened_nanos_eq_iff, ?_⟩
  · rw [hread, e.within_eq_iff e.readNanos_le, e.readNanos_eq_nanos_iff, e.readNanos_eq]
  · rintro s (⟨hminute, hhour⟩ | hlength)
    · exact s.settled_of_unit hminute hhour
    · exact s.settled_of_length hlength

/-- An hour and a half, and seconds with twenty digits after the point. -/
theorem read_exact_iff_twenty_digits :
    let seconds : Term := ⟨⟨[], some "12345678999999999999".toList, .second, ['s'], by simp,
      by simp, by decide⟩, by decide⟩
    let hours : Term := ⟨⟨['1'], some ['5'], .hour, ['h'], by simp, by simp, by decide⟩, by decide⟩
    let e : Expression := ⟨some .plus, [hours, seconds]⟩
    e.sign ≠ some .minus ∧ String.ofList e.text = "+1.5h.12345678999999999999s" ∧
    read (String.ofList e.text) = e.within e.nanos ∧ e.within e.nanos = .ok ⟨5400123456789⟩ := by
  intro seconds hours e
  have hsign : e.sign ≠ some .minus := by decide
  obtain ⟨-, hexact, -, hsettled⟩ := read_exact_iff e hsign
  have hall : ∀ t ∈ e.terms, t.Settled := by
    intro t ht
    rcases List.mem_pair.1 ht with rfl | rfl
    · exact hsettled _ (.inr (by decide))
    · exact hsettled _ (.inl (by decide))
  exact ⟨hsign, by decide +kernel, hexact.2 (.inr hall), by decide +kernel⟩

/-- The nineteenth digit completes the fourth nanosecond: the exact value is
4.00000032 nanoseconds, and 3.9999996 without it. -/
theorem nineteenth_digit_is_lost :
    let hours : Term := ⟨⟨[], some "0000000000011111112".toList, .hour, ['h'], by simp, by simp,
      by decide⟩, by decide⟩
    let e : Expression := ⟨none, [hours]⟩
    String.ofList e.text = ".0000000000011111112h" ∧ e.within e.nanos = .ok ⟨4⟩ ∧
    read (String.ofList e.text) = .ok ⟨3⟩ := by
  decide +kernel

end Duration

end MetricStream
