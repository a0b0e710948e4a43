/-
What an expression is read as, in exact numbers.

Durations are computed in words of 128 bits, and each step that could pass
their range is checked. No unchecked step wraps, for eighteen digits and an
hour's nanoseconds are far from it, so a group has the nanoseconds that plain
arithmetic gives it, or is out of range if these are too many; and whichever
check it is that fails, the sum of all groups is past the longest duration
(`read_text`).
-/
import Mathlib.Algebra.Order.Ring.Nat
import MetricStream.Proofs.Duration.Language

namespace MetricStream

namespace Duration

/-! ## Words -/

namespace Word

theorem exists_ofNat? {n : Nat} (h : n < twoTo 128) : ∃ w, ofNat? n = some w ∧ w.toNat = n :=
  ⟨BitVec.ofNat 128 n, if_pos h, Nat.mod_eq_of_lt h⟩

theorem exists_mul? {a b : Word} (h : a.toNat * b.toNat < twoTo 128) :
    ∃ w, mul? a b = some w ∧ w.toNat = a.toNat * b.toNat :=
  ⟨a * b, if_pos h, mul?_eq_some (if_pos h)⟩

theorem exists_add? {a b : Word} (h : a.toNat + b.toNat < twoTo 128) :
    ∃ w, add? a b = some w ∧ w.toNat = a.toNat + b.toNat :=
  ⟨a + b, if_pos h, add?_eq_some (if_pos h)⟩

end Word

theorem inRange?_eq_some {w v : Word} : inRange? w = some v ↔ v = w ∧ w.toNat ≤ maxNanos := by
  unfold inRange?
  split
  · next h => simp [h, eq_comm]
  · next h => simp [h]

theorem maxNanos_lt : maxNanos < twoTo 128 := by decide

/-! ## Digits and units -/

theorem ofDigitChars_cons (c : Char) (digits : List Char) :
    Nat.ofDigitChars 10 (c :: digits) 0 =
      tenTo digits.length * (c.toNat - '0'.toNat) + Nat.ofDigitChars 10 digits 0 := by
  rw [Nat.ofDigitChars_cons, Nat.ofDigitChars_eq_ofDigitChars_zero, Nat.mul_zero, Nat.zero_add]
  rfl

theorem ofDigitChars_lt {digits : List Char} (h : ∀ c ∈ digits, c.isDigit = true) :
    Nat.ofDigitChars 10 digits 0 < tenTo digits.length := by
  induction digits with
  | nil => decide
  | cons c digits ih =>
    obtain ⟨-, hnine⟩ := Char.isDigit_iff_toNat.1 (h c (by simp))
    have hfirst : tenTo digits.length * (c.toNat - '0'.toNat) ≤ tenTo digits.length * 9 :=
      Nat.mul_le_mul_left _ (Nat.sub_le_sub_right hnine _)
    have hrest := ih fun d hd => h d (by simp [hd])
    have hnext : tenTo (digits.length + 1) = tenTo digits.length * 10 := Nat.pow_succ 10 _
    rw [ofDigitChars_cons, List.length_cons, hnext]
    omega

theorem TimeUnit.nanos_pos (u : TimeUnit) : 0 < u.nanos := by cases u <;> decide

theorem TimeUnit.nanos_le (u : TimeUnit) : u.nanos ≤ 3600 * 1000000000 := by cases u <;> decide

theorem TimeUnit.nanos_lt (u : TimeUnit) : u.nanos < twoTo 128 :=
  Nat.lt_of_le_of_lt u.nanos_le (by decide)

/-! ## One group -/

namespace Group

/-- The nanoseconds that the digits of a group come to, of the fraction those
that are read. -/
def readNanos (g : Group) : Nat :=
  Nat.ofDigitChars 10 g.whole 0 * g.unit.nanos +
    Nat.ofDigitChars 10 (g.fraction.take fractionDigits) 0 * g.unit.nanos /
      tenTo (g.fraction.take fractionDigits).length

end Group

section Fraction

variable {digits : List Char} (h : ∀ c ∈ digits, c.isDigit = true)
  (hlength : digits.length ≤ fractionDigits)

include hlength

theorem tenTo_length_lt : tenTo digits.length < twoTo 128 :=
  Nat.lt_of_le_of_lt (Nat.pow_le_pow_right (by decide) hlength)
    (show tenTo fractionDigits < twoTo 128 by decide)

include h

theorem ofDigitChars_mul_lt (u : TimeUnit) : Nat.ofDigitChars 10 digits 0 * u.nanos < twoTo 128 := by
  have hfar : tenTo fractionDigits * (3600 * 1000000000) < twoTo 128 := by decide
  have hdigits : Nat.ofDigitChars 10 digits 0 ≤ tenTo fractionDigits :=
    (ofDigitChars_lt h).le.trans (Nat.pow_le_pow_right (by decide) hlength)
  exact Nat.lt_of_le_of_lt (Nat.mul_le_mul hdigits u.nanos_le) hfar

/-- The unchecked product does not wrap, and the division is not one by zero. -/
theorem fractionNanos_of_digits (u : TimeUnit) :
    ∃ w, fractionNanos digits (BitVec.ofNat 128 u.nanos) = some w ∧
      w.toNat = Nat.ofDigitChars 10 digits 0 * u.nanos / tenTo digits.length := by
  have hpower := tenTo_length_lt hlength
  have hproduct := ofDigitChars_mul_lt h hlength u
  obtain ⟨numerator, hread, hvalue⟩ := Word.exists_ofNat? ((ofDigitChars_lt h).trans hpower)
  refine ⟨numerator * BitVec.ofNat 128 u.nanos / BitVec.ofNat 128 (tenTo digits.length),
    by rw [fractionNanos, Word.ofDigits?, hread], ?_⟩
  rw [BitVec.toNat_udiv, BitVec.toNat_mul, BitVec.toNat_ofNat, BitVec.toNat_ofNat, hvalue]
  change _ * (_ % twoTo 128) % twoTo 128 / (_ % twoTo 128) = _
  rw [Nat.mod_eq_of_lt u.nanos_lt, Nat.mod_eq_of_lt hproduct, Nat.mod_eq_of_lt hpower]

end Fraction

theorem TimeUnit.toNat_scale (u : TimeUnit) : (BitVec.ofNat 128 u.nanos).toNat = u.nanos := by
  cases u <;> rfl

namespace Spelling

theorem part_of_group (s : Spelling) :
    ∃ w, fractionNanos (s.group.fraction.take fractionDigits) (BitVec.ofNat 128 s.group.unit.nanos) =
        some w ∧ s.group.readNanos = Nat.ofDigitChars 10 s.group.whole 0 * s.group.unit.nanos + w.toNat := by
  have hdigits : ∀ c ∈ s.group.fraction.take fractionDigits, c.isDigit = true :=
    fun c hc => s.fraction_digits c (List.mem_of_mem_take hc)
  obtain ⟨w, hw, hvalue⟩ :=
    fractionNanos_of_digits hdigits (List.length_take_le _ _) s.group.unit
  exact ⟨w, hw, by rw [Group.readNanos, hvalue]⟩

theorem nanos?_toNat (s : Spelling) {w : Word} (h : s.group.nanos? = some w) :
    w.toNat = s.group.readNanos ∧ w.toNat ≤ maxNanos := by
  obtain ⟨part, hpart, hnanos⟩ := s.part_of_group
  simp only [Group.nanos?, Option.bind_eq_bind, Option.bind_eq_some_iff, hpart, Option.some.injEq,
    exists_eq_left'] at h
  obtain ⟨count, hcount, whole, hwhole, sum, hsum, hrange⟩ := h
  obtain ⟨rfl, hle⟩ := inRange?_eq_some.1 hrange
  refine ⟨?_, hle⟩
  rw [Word.add?_eq_some hsum, Word.mul?_eq_some hwhole, Word.ofNat?_eq_some hcount,
    TimeUnit.toNat_scale, hnanos]

theorem exists_nanos? (s : Spelling) (h : s.group.readNanos ≤ maxNanos) : ∃ w, s.group.nanos? = some w := by
  obtain ⟨part, hpart, hnanos⟩ := s.part_of_group
  have hmax := maxNanos_lt
  have hcount : Nat.ofDigitChars 10 s.group.whole 0 ≤
      Nat.ofDigitChars 10 s.group.whole 0 * s.group.unit.nanos :=
    Nat.le_mul_of_pos_right _ s.group.unit.nanos_pos
  obtain ⟨count, hread, hvalue⟩ :=
    Word.exists_ofNat? (show Nat.ofDigitChars 10 s.group.whole 0 < twoTo 128 by omega)
  obtain ⟨whole, hwhole, hproduct⟩ :=
    Word.exists_mul? (show count.toNat * (BitVec.ofNat 128 s.group.unit.nanos).toNat < twoTo 128 by
      rw [hvalue, TimeUnit.toNat_scale]; omega)
  rw [hvalue, TimeUnit.toNat_scale] at hproduct
  obtain ⟨sum, hsum, htotal⟩ :=
    Word.exists_add? (show whole.toNat + part.toNat < twoTo 128 by omega)
  have hrange : inRange? sum = some sum := inRange?_eq_some.2 ⟨rfl, by omega⟩
  exact ⟨sum, by simp only [Group.nanos?, Word.ofDigits?, hread, hwhole, hpart, hsum, hrange,
    Option.bind_eq_bind, Option.bind_some]⟩

end Spelling

/-! ## Groups added up -/

theorem totalFrom_toNat {ts : List Term} {total w : Word} (htotal : total.toNat ≤ maxNanos)
    (h : totalFrom total (ts.map (·.group)) = some w) :
    w.toNat = total.toNat + (ts.map (·.group.readNanos)).sum ∧ w.toNat ≤ maxNanos := by
  induction ts generalizing total with
  | nil =>
    cases h
    exact ⟨rfl, htotal⟩
  | cons t ts ih =>
    simp only [List.map_cons, totalFrom, Option.bind_eq_bind, Option.bind_eq_some_iff] at h
    obtain ⟨nanos, hnanos, sum, hsum, sum', hrange, h⟩ := h
    obtain ⟨rfl, hle⟩ := inRange?_eq_some.1 hrange
    obtain ⟨hw, hmax⟩ := ih hle h
    rw [Word.add?_eq_some hsum, (t.nanos?_toNat hnanos).1] at hw
    refine ⟨?_, hmax⟩
    rw [hw, List.map_cons, List.sum_cons, Nat.add_assoc]

theorem exists_totalFrom {ts : List Term} {total : Word}
    (h : total.toNat + (ts.map (·.group.readNanos)).sum ≤ maxNanos) :
    ∃ w, totalFrom total (ts.map (·.group)) = some w := by
  induction ts generalizing total with
  | nil => exact ⟨total, rfl⟩
  | cons t ts ih =>
    rw [List.map_cons, List.sum_cons] at h
    have hmax := maxNanos_lt
    obtain ⟨nanos, hnanos⟩ := t.exists_nanos? (by omega)
    have hvalue := (t.nanos?_toNat hnanos).1
    obtain ⟨sum, hsum, htotal⟩ :=
      Word.exists_add? (show total.toNat + nanos.toNat < twoTo 128 by omega)
    have hrange : inRange? sum = some sum := inRange?_eq_some.2 ⟨rfl, by omega⟩
    obtain ⟨w, hw⟩ := ih (show sum.toNat + (ts.map (·.group.readNanos)).sum ≤ maxNanos by omega)
    refine ⟨w, ?_⟩
    simp only [List.map_cons, totalFrom, hnanos, hsum, hrange, Option.bind_eq_bind, Option.bind_some,
      hw]

namespace Expression

/-- The nanoseconds that the groups of the expression come to, each as it is read. -/
def readNanos (e : Expression) : Nat := (e.terms.map (·.group.readNanos)).sum

/-- **An expression is read as the sum of its groups**, if that is in range, and
is out of range otherwise. -/
theorem read_text (e : Expression) :
    read (String.ofList e.text) =
      if e.readNanos ≤ maxNanos then
        .ok (if e.sign = some .minus then zero else ⟨e.readNanos⟩)
      else .error (.outOfRange (String.ofList e.text)) := by
  rw [read_expression String.toList_ofList.symm]
  split
  · next htotal =>
    have hfar : ¬ e.readNanos ≤ maxNanos := by
      intro hle
      obtain ⟨w, hw⟩ := exists_totalFrom (show (0 : Word).toNat + e.readNanos ≤ maxNanos by simpa using hle)
      rw [hw] at htotal
      cases htotal
    rw [if_neg hfar]
  · next w htotal =>
    obtain ⟨hvalue, hle⟩ := totalFrom_toNat (by decide) htotal
    have hsum : w.toNat = e.readNanos := by simpa [readNanos] using hvalue
    rw [hsum] at hle
    -- A word in range keeps its value in 64 bits.
    have hnarrow : (w.setWidth 64).toNat = e.readNanos := by
      rw [BitVec.toNat_setWidth, hsum, Nat.mod_eq_of_lt]
      exact Nat.lt_of_le_of_lt hle (by decide)
    rw [hnarrow, if_pos hle]

end Expression

end Duration

end MetricStream
