/-
The language of numbers, apart from how they are read.

A number is written as an optional sign and then a name of the infinity, a name of what is
no number, or a numeral: digits with at most one point, and perhaps an exponent.
`Spelling` is this grammar as data, and `text` what it looks like. Reading finds exactly
the texts of spellings, and as the literal that the spelling says (`read?_eq_some_iff`);
and a text has one spelling only (`Spelling.text_injective`).
-/
import MetricStream.Binary64.Literal
import MetricStream.Proofs.Duration.Language

namespace MetricStream

namespace Binary64

open Duration (Sign pointed EndsNumber Unsigned lexFraction lexFraction_eq)

/-- An exponent as it is written. -/
structure Exponent where
  mark : Char
  sign : Option Sign
  digits : List Char
  mark_eq : mark = 'e' ∨ mark = 'E'
  ne_nil : digits ≠ []
  digits_digits : ∀ c ∈ digits, c.isDigit = true

namespace Exponent

def text : Option Exponent → List Char
  | none => []
  | some e => e.mark :: (Sign.text e.sign ++ e.digits)

/-- The power of ten that it stands for. Without an exponent this is the first. -/
def value : Option Exponent → Int
  | none => 0
  | some e =>
    if e.sign = some .minus then -(Nat.ofDigitChars 10 e.digits 0 : Int)
    else Nat.ofDigitChars 10 e.digits 0

end Exponent

/-- A decimal as it is written, without its sign. -/
structure Numeral where
  whole : List Char
  /-- The digits after the point, if there is a point. -/
  fraction : Option (List Char)
  exponent : Option Exponent
  whole_digits : ∀ c ∈ whole, c.isDigit = true
  fraction_digits : ∀ c ∈ fraction.getD [], c.isDigit = true
  digit : whole ≠ [] ∨ fraction.getD [] ≠ []

namespace Numeral

def text (n : Numeral) : List Char := n.whole ++ (pointed n.fraction ++ Exponent.text n.exponent)

/-- All digits, on both sides of the point. -/
def digits (n : Numeral) : List Char := n.whole ++ n.fraction.getD []

end Numeral

/-- What stands after the sign. Words are in any letter case. -/
inductive Body where
  | infinity (word : List Char)
    (spells : word.map Char.toLower = "inf".toList ∨ word.map Char.toLower = "infinity".toList)
  | notANumber (word : List Char) (spells : word.map Char.toLower = "nan".toList)
  | decimal (n : Numeral)

def Body.text : Body → List Char
  | .infinity word _ => word
  | .notANumber word _ => word
  | .decimal n => n.text

/-- A number as it is typed. -/
structure Spelling where
  sign : Option Sign
  body : Body

namespace Spelling

def text (s : Spelling) : List Char := Sign.text s.sign ++ s.body.text

/-- The sign is a minus. -/
def isNegative (s : Spelling) : Bool := s.sign = some .minus

/-- The literal that the spelling says. -/
def literal (s : Spelling) : Literal :=
  match s.body with
  | .infinity _ _ => .infinity s.isNegative
  | .notANumber _ _ => .notANumber
  | .decimal n =>
    .decimal s.isNegative n.digits (Exponent.value n.exponent - (n.fraction.getD []).length)

end Spelling

/-! ## Exponents -/

namespace Exponent

theorem head_text (e : Option Exponent) : ∀ c ∈ (text e).head?, c = 'e' ∨ c = 'E' := by
  intro c hc
  rcases e with _ | e
  · simp [text] at hc
  · obtain rfl : e.mark = c := by simpa [text] using hc
    exact e.mark_eq

theorem endsNumber_text (e : Option Exponent) : EndsNumber (text e) := by
  intro c hc
  rcases head_text e c hc with rfl | rfl <;> decide

theorem unsigned_digits (e : Exponent) : Unsigned e.digits := by
  obtain ⟨c, cs, hdigits⟩ := List.exists_cons_of_ne_nil e.ne_nil
  rw [hdigits]
  exact Unsigned.of_head (.inl (e.digits_digits c (by simp [hdigits]))) cs

theorem readExponent?_text (e : Option Exponent) : Literal.readExponent? (text e) = some (value e) := by
  rcases e with _ | e
  · rfl
  have hdigits : e.digits ≠ [] ∧ e.digits.all Char.isDigit = true :=
    ⟨e.ne_nil, List.all_eq_true.2 e.digits_digits⟩
  simp only [text, Literal.readExponent?, if_pos e.mark_eq, e.unsigned_digits.takeSign_text,
    if_pos hdigits, decide_eq_true_eq, value]

theorem exists_text {cs : List Char} {x : Int} (h : Literal.readExponent? cs = some x) :
    ∃ e, text e = cs := by
  unfold Literal.readExponent? at h
  split at h
  · exact ⟨none, rfl⟩
  next c cs =>
  split at h
  case isFalse => cases h
  next hmark =>
  obtain ⟨sign, hsign⟩ := Duration.exists_sign cs
  simp only at h
  split at h
  case isFalse => cases h
  next hdigits =>
  exact ⟨some ⟨c, sign, (Text.takeSign cs).2, hmark, hdigits.1, List.all_eq_true.1 hdigits.2⟩,
    congrArg (c :: ·) hsign⟩

theorem text_injective {e e' : Option Exponent} (h : text e = text e') : e = e' := by
  rcases e with _ | e <;> rcases e' with _ | e'
  · rfl
  · cases h
  · cases h
  · obtain ⟨hmark, hrest⟩ := List.cons.inj h
    obtain ⟨hsign, hdigits⟩ := e.unsigned_digits.sign_injective e'.unsigned_digits hrest
    obtain ⟨mark, sign, digits⟩ := e
    simp only at hmark hsign hdigits
    subst hmark hsign hdigits
    rfl

end Exponent

/-! ## Numerals -/

namespace Numeral

theorem digits_ne_nil (n : Numeral) : n.digits ≠ [] := by
  intro h
  obtain ⟨hwhole, hfraction⟩ := List.append_eq_nil_iff.1 h
  exact n.digit.elim (absurd hwhole) (absurd hfraction)

theorem head_text (n : Numeral) : ∃ c cs, n.text = c :: cs ∧ (c.isDigit = true ∨ c = '.') :=
  Duration.head_number n.whole_digits n.digit _

theorem readDecimal?_eq (negative : Bool) (cs : List Char) :
    Literal.readDecimal? negative cs =
      let whole := cs.takeWhile Char.isDigit
      let (fraction, rest) := lexFraction (cs.dropWhile Char.isDigit)
      if whole ++ fraction = [] then none
      else (Literal.readExponent? rest).map fun e =>
        .decimal negative (whole ++ fraction) (e - fraction.length) := by
  unfold Literal.readDecimal? lexFraction
  simp only
  generalize cs.dropWhile Char.isDigit = after
  rcases after with _ | ⟨c, after⟩
  · rfl
  · by_cases hc : c = '.'
    · subst hc
      rfl
    · simp [hc]

/-- What is written as a numeral is read as its digits, with the power of ten that its last
digit counts. -/
theorem readDecimal?_text (n : Numeral) (negative : Bool) :
    Literal.readDecimal? negative n.text =
      some (.decimal negative n.digits (Exponent.value n.exponent - (n.fraction.getD []).length)) := by
  have hnumber := Exponent.endsNumber_text n.exponent
  have hends := hnumber.endsDigits n.fraction
  have hne := n.digits_ne_nil
  rw [digits] at hne ⊢
  rw [readDecimal?_eq, text]
  simp only [hends.takeWhile n.whole_digits, hends.dropWhile n.whole_digits,
    hnumber.lexFraction n.fraction_digits, if_neg hne, Exponent.readExponent?_text, Option.map_some]

theorem exists_text {negative : Bool} {cs : List Char} {l : Literal}
    (h : Literal.readDecimal? negative cs = some l) : ∃ n : Numeral, n.text = cs := by
  obtain ⟨fraction, hdigits, hfraction, hafter⟩ := lexFraction_eq (cs.dropWhile Char.isDigit)
  rw [readDecimal?_eq] at h
  simp only [hfraction] at h
  split at h
  case isTrue => cases h
  next hne =>
  obtain ⟨x, hread, -⟩ := Option.map_eq_some_iff.1 h
  obtain ⟨exponent, hexponent⟩ := Exponent.exists_text hread
  refine ⟨⟨cs.takeWhile Char.isDigit, fraction, exponent, fun c hc => List.mem_takeWhile_imp hc,
    hdigits, ?_⟩, ?_⟩
  · by_contra hnone
    rw [not_or, not_not, not_not] at hnone
    exact hne (List.append_eq_nil_iff.2 hnone)
  · rw [text, hexponent, hafter, List.takeWhile_append_dropWhile]

theorem text_injective {n n' : Numeral} (h : n.text = n'.text) : n = n' := by
  have hnumber := Exponent.endsNumber_text n.exponent
  have hnumber' := Exponent.endsNumber_text n'.exponent
  obtain ⟨whole, fraction, exponent, hwhole, hfraction, _⟩ := n
  obtain ⟨whole', fraction', exponent', hwhole', hfraction', _⟩ := n'
  simp only [text] at h
  have hsame : whole = whole' := by
    rw [← (hnumber.endsDigits fraction).takeWhile hwhole, h,
      (hnumber'.endsDigits fraction').takeWhile hwhole']
  subst hsame
  rw [List.append_cancel_left_eq] at h
  obtain ⟨rfl, hexponent⟩ := hnumber.pointed_injective hnumber' hfraction hfraction' h
  obtain rfl := Exponent.text_injective hexponent
  rfl

end Numeral

/-! ## Words -/

/-- The words that stand for no decimal. -/
def words : List (List Char) := ["inf".toList, "infinity".toList, "nan".toList]

theorem mem_words {word : List Char} :
    word ∈ words ↔ (word = "inf".toList ∨ word = "infinity".toList) ∨ word = "nan".toList := by
  rw [words, List.mem_cons, List.mem_cons, List.mem_singleton, or_assoc]

theorem head_words :
    ∀ word ∈ words, ∀ c ∈ word.head?, c.isDigit = false ∧ c ≠ '.' ∧ c ≠ '+' ∧ c ≠ '-' := by
  simp [words]

theorem unsigned_word {word : List Char} (h : word.map Char.toLower ∈ words) : Unsigned word := by
  intro c hc
  have hhead := (head_words _ h c.toLower (by rw [List.head?_map, hc]; rfl)).2.2
  constructor
  · rintro rfl
    exact hhead.1 rfl
  · rintro rfl
    exact hhead.2 rfl

theorem toLower_eq_of_isDigit {c : Char} (h : c.isDigit = true) : c.toLower = c := by
  have hlow : c.val ≤ '9'.val := by
    rw [Char.isDigit, Bool.and_eq_true, decide_eq_true_eq, decide_eq_true_eq] at h
    exact h.2
  have hnot : ¬ ('A'.val ≤ c.val ∧ c.val ≤ 'Z'.val) := fun hupper =>
    absurd (UInt32.le_trans hupper.1 hlow) (by decide)
  exact dif_neg hnot

namespace Numeral

theorem unsigned_text (n : Numeral) : Unsigned n.text := by
  obtain ⟨c, cs, htext, hc⟩ := n.head_text
  rw [htext]
  exact Unsigned.of_head hc cs

theorem text_notMem_words (n : Numeral) : n.text.map Char.toLower ∉ words := by
  obtain ⟨c, cs, htext, hc⟩ := n.head_text
  intro hmem
  obtain ⟨hdigit, hpoint, -⟩ := head_words _ hmem c.toLower (by rw [htext]; rfl)
  rcases hc with hc | rfl
  · rw [toLower_eq_of_isDigit hc, hc] at hdigit
    cases hdigit
  · exact hpoint rfl

end Numeral

theorem Body.unsigned_text (b : Body) : Unsigned b.text := by
  rcases b with ⟨word, hword⟩ | ⟨word, hword⟩ | n
  · exact unsigned_word (mem_words.2 (.inl hword))
  · exact unsigned_word (mem_words.2 (.inr hword))
  · exact n.unsigned_text

/-! ## Literals -/

namespace Spelling

theorem read?_text (s : Spelling) : Literal.read? s.text = some s.literal := by
  unfold Literal.read? literal isNegative
  rw [text, s.body.unsigned_text.takeSign_text]
  rcases s.body with ⟨word, hword⟩ | ⟨word, hword⟩ | n
  · exact if_pos hword
  · have hinfinity : ¬ (word.map Char.toLower = "inf".toList ∨
        word.map Char.toLower = "infinity".toList) := by
      rw [hword]
      decide
    exact (if_neg hinfinity).trans (if_pos hword)
  · have hwords := n.text_notMem_words
    rw [mem_words, not_or] at hwords
    exact (if_neg hwords.1).trans ((if_neg hwords.2).trans (n.readDecimal?_text _))

theorem exists_text {cs : List Char} {l : Literal} (h : Literal.read? cs = some l) :
    ∃ s : Spelling, s.text = cs := by
  obtain ⟨sign, hsign⟩ := Duration.exists_sign cs
  unfold Literal.read? at h
  simp only at h
  split at h
  · next hword => exact ⟨⟨sign, .infinity _ hword⟩, hsign⟩
  split at h
  · next hword => exact ⟨⟨sign, .notANumber _ hword⟩, hsign⟩
  · obtain ⟨n, hn⟩ := Numeral.exists_text h
    refine ⟨⟨sign, .decimal n⟩, ?_⟩
    rw [text, Body.text, hn, hsign]

theorem text_injective {s s' : Spelling} (h : s.text = s'.text) : s = s' := by
  have hliteral : s.literal = s'.literal := by
    rw [← Option.some.injEq, ← read?_text, ← read?_text, h]
  obtain ⟨hsign, hbody⟩ := s.body.unsigned_text.sign_injective s'.body.unsigned_text h
  obtain ⟨sign, body⟩ := s
  obtain ⟨sign', body'⟩ := s'
  rw [Spelling.mk.injEq]
  refine ⟨hsign, ?_⟩
  -- What is said tells the three kinds apart.
  cases body with
  | infinity word _ =>
    cases body' with
    | infinity word' _ =>
      obtain rfl : word = word' := hbody
      rfl
    | notANumber _ _ => cases hliteral
    | decimal _ => cases hliteral
  | notANumber word _ =>
    cases body' with
    | infinity _ _ => cases hliteral
    | notANumber word' _ =>
      obtain rfl : word = word' := hbody
      rfl
    | decimal _ => cases hliteral
  | decimal n =>
    cases body' with
    | infinity _ _ => cases hliteral
    | notANumber _ _ => cases hliteral
    | decimal n' => rw [Numeral.text_injective hbody]

end Spelling

/-- The texts that are read are those of the spellings, each as what it says. -/
theorem read?_eq_some_iff {cs : List Char} {l : Literal} :
    Literal.read? cs = some l ↔ ∃ s : Spelling, s.text = cs ∧ s.literal = l := by
  constructor
  · intro h
    obtain ⟨s, rfl⟩ := Spelling.exists_text h
    rw [s.read?_text, Option.some.injEq] at h
    exact ⟨s, rfl, h⟩
  · rintro ⟨s, rfl, rfl⟩
    exact s.read?_text

end Binary64

end MetricStream
