/-
What a typed number is read as.

A decimal has an exact value, of any count of digits and any size of exponent
(`Spelling.value?`). Reading it does not compute with powers of ten past all finite
numbers, but comes to the same (`decimalValue_eq`): the number nearest to the exact value,
or an infinity from `overflow` on. So a typed number has one of three outcomes, and the
text and the exact value decide which (`readValue_by_language`).
-/
import MetricStream.Command
import MetricStream.Proofs.Binary64.Language
import MetricStream.Proofs.Binary64.Nearest
import MetricStream.Proofs.Duration.Exact

namespace MetricStream

namespace Binary64

/-! ## Decimals out of reach -/

theorem nearest_of_small {n d : ℕ} (h : 2 * n < d) : nearest n d = 0 := by
  have hquot : n / d = 0 := Nat.div_eq_of_lt (by omega)
  have hgrain : grain 0 = 1 := rfl
  have hround : roundDiv n d = 0 := by
    rw [roundDiv, hquot, Nat.mod_eq_of_lt (by omega), if_pos (.inl h)]
  rw [nearest, hquot, hgrain]
  simp only [Nat.mul_one, hround]

theorem ofRatio_of_small {n d : ℕ} (negative : Bool) (h : 2 * n < d) :
    ofRatio negative n d = .finite negative .zero := by
  have hnearest := nearest_of_small h
  have hlt : nearest n d < limit := by
    rw [hnearest]
    exact limit_pos
  rw [ofRatio_eq_finite hlt, finite.injEq]
  exact ⟨rfl, Magnitude.ext hnearest⟩

theorem ofRatio_of_large {n d : ℕ} (negative : Bool) (h : limit ≤ n / d) :
    ofRatio negative n d = .infinite negative := by
  have hle : limit ≤ nearest n d := twoTo_le_nearest (by decide) h
  exact dif_neg (Nat.not_lt.2 hle)

theorem ofRatio_tenTo_far {n i : ℕ} (negative : Bool) (hn : n ≠ 0) (hi : 401 ≤ i) :
    ofRatio negative (n * tenTo i * one) 1 = .infinite negative := by
  have hgrow {k : ℕ} (hk : k ≤ i) : tenTo k ≤ tenTo i := Nat.pow_le_pow_right (by decide) hk
  have hpower : twoTo 1024 ≤ tenTo 401 := by decide +kernel
  have hlarge : twoTo 1024 ≤ n * tenTo i :=
    hpower.trans ((hgrow hi).trans (Nat.le_mul_of_pos_left _ (Nat.pos_of_ne_zero hn)))
  refine ofRatio_of_large negative ?_
  rw [Nat.div_one, limit_eq]
  exact Nat.mul_le_mul_right one hlarge

theorem ofRatio_far_tenTo {n count i : ℕ} (negative : Bool) (h : n < tenTo count)
    (hi : count + 401 ≤ i) : ofRatio negative (n * one) (tenTo i) = .finite negative .zero := by
  have hgrow {k : ℕ} (hk : k ≤ i) : tenTo k ≤ tenTo i := Nat.pow_le_pow_right (by decide) hk
  have hsum (k : ℕ) : tenTo (count + k) = tenTo count * tenTo k := Nat.pow_add 10 count k
  have hpower : 2 * one ≤ tenTo 401 := by decide +kernel
  refine ofRatio_of_small negative ?_
  calc
    2 * (n * one) = n * (2 * one) := Nat.mul_left_comm 2 n one
    _ ≤ n * tenTo 401 := Nat.mul_le_mul_left n hpower
    _ < tenTo count * tenTo 401 := Nat.mul_lt_mul_of_pos_right h (by decide +kernel)
    _ = tenTo (count + 401) := (hsum 401).symm
    _ ≤ tenTo i := hgrow hi

/-- **The far exponents change nothing.** -/
theorem decimalValue_eq {n count : ℕ} (h : n < tenTo count) (negative : Bool) (e : ℤ) :
    Literal.decimalValue negative n count e =
      ofRatio negative (n * tenTo e.toNat * one) (tenTo (-e).toNat) := by
  unfold Literal.decimalValue Literal.farExponent
  have hzero : tenTo 0 = 1 := rfl
  split
  · next hn =>
    rw [hn, Nat.zero_mul, Nat.zero_mul, ofRatio_of_small]
    exact Nat.pow_pos (by decide)
  next hn =>
  split
  · next hfar =>
    rw [show (-e).toNat = 0 by omega, hzero, ofRatio_tenTo_far negative hn (by omega)]
  split
  · next hfar =>
    rw [show e.toNat = 0 by omega, hzero, Nat.mul_one, ofRatio_far_tenTo negative h (by omega)]
  split
  · next hup => rw [show (-e).toNat = 0 by omega, hzero]
  · next hdown => rw [show e.toNat = 0 by omega, hzero, Nat.mul_one]

/-! ## Exact values -/

/-- The exact value of a numeral. -/
def Numeral.value (n : Numeral) : ℚ :=
  (Nat.ofDigitChars 10 n.whole 0 + Duration.fractionValue (n.fraction.getD [])) *
    10 ^ Exponent.value n.exponent

/-- The exact value of a decimal. The words have none. -/
def Spelling.value? (s : Spelling) : Option ℚ :=
  match s.body with
  | .infinity _ _ => none
  | .notANumber _ _ => none
  | .decimal n => some (signFactor s.isNegative * n.value)

theorem Numeral.value_eq (n : Numeral) :
    n.value = Nat.ofDigitChars 10 n.digits 0 *
      10 ^ (Exponent.value n.exponent - (n.fraction.getD []).length) := by
  have hdigits : Nat.ofDigitChars 10 n.digits 0 =
      tenTo (n.fraction.getD []).length * Nat.ofDigitChars 10 n.whole 0 +
        Nat.ofDigitChars 10 (n.fraction.getD []) 0 := by
    rw [digits, Nat.ofDigitChars_append, Nat.ofDigitChars_eq_ofDigitChars_zero]
    rfl
  rw [value, Duration.fractionValue_eq, hdigits, zpow_sub₀ (by norm_num), zpow_natCast]
  push_cast [Duration.cast_tenTo]
  field_simp

theorem ratio_tenTo (negative : Bool) (n : ℕ) (e : ℤ) :
    ratio negative (n * tenTo e.toNat * one) (tenTo (-e).toNat) =
      signFactor negative * (n * 10 ^ e) := by
  have hone : (one : ℚ) ≠ 0 := by exact_mod_cast one_pos.ne'
  have hpower : (10 : ℚ) ^ e = 10 ^ e.toNat / 10 ^ (-e).toNat := by
    rw [← zpow_natCast, ← zpow_natCast, ← zpow_sub₀ (by norm_num)]
    congr 1
    omega
  rw [ratio, hpower, Nat.cast_mul, Nat.cast_mul, Duration.cast_tenTo, Duration.cast_tenTo,
    mul_div_mul_right _ _ hone, mul_div_assoc]

namespace Spelling

variable {s : Spelling} {v : ℚ}

theorem exists_ratio (h : s.value? = some v) :
    ∃ n d : ℕ, 0 < d ∧ ratio s.isNegative n d = v ∧ s.literal.value = ofRatio s.isNegative n d := by
  obtain ⟨sign, ⟨word, _⟩ | ⟨word, _⟩ | n⟩ := s
  case infinity => cases h
  case notANumber => cases h
  have hdigits : ∀ c ∈ n.digits, c.isDigit = true := by
    intro c hc
    exact (List.mem_append.1 hc).elim (n.whole_digits c) (n.fraction_digits c)
  refine ⟨_, tenTo _, Nat.pow_pos (by decide), ?_, decimalValue_eq (Duration.ofDigitChars_lt hdigits) _ _⟩
  rw [ratio_tenTo, ← n.value_eq]
  exact Option.some.inj h

/-- Words stand for no finite number, and decimals for one short of `overflow`. -/
theorem isFinite_iff : s.literal.value.isFinite = true ↔ ∃ v, s.value? = some v ∧ |v| < overflow := by
  rcases hvalue : s.value? with _ | v
  · have hno : s.literal.value.isFinite = false := by
      obtain ⟨sign, ⟨word, _⟩ | ⟨word, _⟩ | n⟩ := s
      · rfl
      · rfl
      · cases hvalue
    simp [hno]
  · obtain ⟨n, d, hd, rfl, hliteral⟩ := exists_ratio hvalue
    rw [hliteral, isFinite_ofRatio, nearest_lt_limit_iff hd s.isNegative]
    simp

theorem eq_iff (h : s.value? = some v) (hv : |v| < overflow) {x : Binary64} :
    x = s.literal.value ↔ IsNearest v x ∧ x.isNegative = s.isNegative := by
  obtain ⟨n, d, hd, rfl, hliteral⟩ := exists_ratio h
  rw [hliteral]
  exact isNearest_iff hd ((nearest_lt_limit_iff hd _).2 hv)

end Spelling

end Binary64

/-! ## Typed numbers -/

section

open Binary64

variable {typed given : String}

theorem readValue_spelling {s : Spelling} (h : s.text = typed.toList) :
    readValue typed =
      if s.literal.value.isFinite then .ok s.literal.value else .error (.nonFinite typed) := by
  rw [readValue, read?, ← h, s.read?_text]
  rfl

theorem readValue_eq_malformed :
    readValue typed = .error (.malformedNumber given) ↔
      given = typed ∧ ¬ ∃ s : Spelling, s.text = typed.toList := by
  constructor
  · intro h
    have hno : ¬ ∃ s : Spelling, s.text = typed.toList := by
      rintro ⟨s, hs⟩
      rw [readValue_spelling hs] at h
      split at h <;> cases h
    refine ⟨?_, hno⟩
    unfold readValue at h
    split at h
    · cases h
      rfl
    · split at h <;> cases h
  · rintro ⟨rfl, hno⟩
    have hnone : Literal.read? given.toList = none := by
      rw [Option.eq_none_iff_forall_ne_some]
      intro l hl
      exact hno (Spelling.exists_text hl)
    rw [readValue, read?, hnone]
    rfl

theorem readValue_eq_nonFinite :
    readValue typed = .error (.nonFinite given) ↔
      given = typed ∧ ∃ s : Spelling, s.text = typed.toList ∧
        ∀ v, s.value? = some v → overflow ≤ |v| := by
  constructor
  · intro h
    by_cases hs : ∃ s : Spelling, s.text = typed.toList
    · obtain ⟨s, hs⟩ := hs
      rw [readValue_spelling hs] at h
      split at h
      · cases h
      next hfinite =>
      cases h
      refine ⟨rfl, s, hs, fun v hv => ?_⟩
      rw [s.isFinite_iff] at hfinite
      exact not_lt.1 fun hlt => hfinite ⟨v, hv, hlt⟩
    · rw [readValue_eq_malformed.2 ⟨rfl, hs⟩] at h
      cases h
  · rintro ⟨rfl, s, hs, hlarge⟩
    have hfinite : ¬ s.literal.value.isFinite = true := by
      rw [s.isFinite_iff]
      rintro ⟨v, hv, hlt⟩
      exact not_lt.2 (hlarge v hv) hlt
    rw [readValue_spelling hs, if_neg hfinite]

theorem readValue_nearest {s : Spelling} {v : ℚ} (hs : s.text = typed.toList) (hv : s.value? = some v)
    (hlt : |v| < overflow) :
    ∃ x, readValue typed = .ok x ∧ ∀ y, y = x ↔ IsNearest v y ∧ y.isNegative = s.isNegative := by
  refine ⟨s.literal.value, ?_, fun y => s.eq_iff hv hlt⟩
  rw [readValue_spelling hs, if_pos (s.isFinite_iff.2 ⟨v, hv, hlt⟩)]

/-- **Typed numbers.** A text has one spelling at most, and is malformed exactly if it has
none. It is refused as not finite exactly if its spelling is a word, or a decimal whose
exact value is nearer to `2 ^ 1024` than to a finite number, or as near. Any other decimal
is read: as that finite number with its sign which is nearest to the exact value, with an
even significand if two are as near, and so as a number of that very value if there is one. -/
theorem readValue_by_language :
    (∀ s s' : Spelling, s.text = s'.text → s = s') ∧
    (∀ typed given, readValue typed = .error (.malformedNumber given) ↔
      given = typed ∧ ¬ ∃ s : Spelling, s.text = typed.toList) ∧
    (∀ typed given, readValue typed = .error (.nonFinite given) ↔
      given = typed ∧ ∃ s : Spelling, s.text = typed.toList ∧
        ∀ v, s.value? = some v → overflow ≤ |v|) ∧
    (∀ typed (s : Spelling) v, s.text = typed.toList → s.value? = some v → |v| < overflow →
      ∃ x, readValue typed = .ok x ∧
        (∀ y, y = x ↔ IsNearest v y ∧ y.isNegative = s.isNegative) ∧
        (∀ y : Binary64, y.isFinite = true → y.value = v → x.value = v)) := by
  refine ⟨fun _ _ => Spelling.text_injective, fun _ _ => readValue_eq_malformed,
    fun _ _ => readValue_eq_nonFinite, fun typed s v hs hv hlt => ?_⟩
  obtain ⟨x, hread, hx⟩ := readValue_nearest hs hv hlt
  exact ⟨x, hread, hx, fun y => ((hx x).1 rfl).1.value_eq⟩

/-- A decimal that is rounded down to the greatest finite number, with one more in its last
digit too great, and a zero with an exponent past all numbers. -/
theorem readValue_by_language_greatest :
    let great : Numeral := ⟨['1'], some "7976931348623158".toList,
      some ⟨'e', none, "308".toList, by decide, by decide, by simp⟩, by simp, by simp, by decide⟩
    let zero : Numeral := ⟨['0'], none,
      some ⟨'E', some .plus, "99999999999999999999".toList, by decide, by decide, by simp⟩,
      by simp, by simp, by decide⟩
    (⟨none, .decimal great⟩ : Spelling).text = "1.7976931348623158e308".toList ∧
    |great.value| < overflow ∧
    (∃ x, readValue "1.7976931348623158e308" = .ok x ∧ IsNearest great.value x) ∧
    (∃ s : Spelling, s.text = "1.7976931348623159e308".toList ∧
      ∀ v, s.value? = some v → overflow ≤ |v|) ∧
    (⟨some .minus, .decimal zero⟩ : Spelling).text = "-0E+99999999999999999999".toList ∧
    (∃ x, readValue "-0E+99999999999999999999" = .ok x ∧ x.value = 0 ∧ x.isNegative = true) ∧
    (¬ ∃ s : Spelling, s.text = "1.e".toList) := by
  intro great zero
  obtain ⟨-, hmalformed, hnonFinite, hok⟩ := readValue_by_language
  have hgreat : great.value = 17976931348623158 * 10 ^ 292 := by
    rw [great.value_eq]
    norm_num [show Nat.ofDigitChars 10 great.digits 0 = 17976931348623158 by decide +kernel,
      show Exponent.value great.exponent - (great.fraction.getD []).length = 292 by decide +kernel]
  have hbelow : |great.value| < overflow := by
    have hnat : 17976931348623158 * tenTo 292 + twoTo 970 < twoTo 1024 := by decide +kernel
    rw [hgreat, abs_of_pos (by positivity), overflow, lt_sub_iff_add_lt, ← cast_twoTo, ← cast_twoTo,
      ← Duration.cast_tenTo]
    exact_mod_cast hnat
  have hzero : zero.value = 0 := by
    rw [zero.value_eq, show Nat.ofDigitChars 10 zero.digits 0 = 0 by decide, Nat.cast_zero, zero_mul]
  have hsame : (signFactor false : ℚ) * great.value = great.value := by simp [signFactor]
  have hsmall : |signFactor true * zero.value| < overflow := by
    rw [hzero, mul_zero, abs_zero, overflow, sub_pos]
    exact pow_lt_pow_right₀ (by norm_num) (by norm_num)
  refine ⟨by decide, hbelow, ?_, ?_, by decide, ?_, ?_⟩
  · obtain ⟨x, hread, hx, -⟩ :=
      hok "1.7976931348623158e308" ⟨none, .decimal great⟩ great.value (by decide)
        (congrArg some hsame) hbelow
    exact ⟨x, hread, ((hx x).1 rfl).1⟩
  · exact ((hnonFinite _ "1.7976931348623159e308").1 (by decide +kernel)).2
  · obtain ⟨x, hread, hx, hvalue⟩ :=
      hok "-0E+99999999999999999999" ⟨some .minus, .decimal zero⟩ _ (by decide) rfl hsmall
    have hnothing : (finite true .zero).value = signFactor true * zero.value := by
      rw [hzero, mul_zero]
      exact zero_div _
    refine ⟨x, hread, ?_, ((hx x).1 rfl).2⟩
    rw [hvalue _ rfl hnothing, hzero, mul_zero]
  · exact ((hmalformed _ "1.e").1 (by decide +kernel)).2

end

end MetricStream
