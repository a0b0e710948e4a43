/-
Texts that can be shown as they are, and texts of one line.

A line break is not printable. Numbers are printable, and so is every quoted
text, whatever it quotes, for quoting names by code point what cannot be shown
(`printable_quote`).
-/
import Mathlib.Data.List.Basic
import Mathlib.Tactic.SplitIfs
import MetricStream.Text.Quoted

namespace MetricStream.Text

/-- No character of the text is unprintable. -/
def Printable (s : String) : Prop := ∀ c ∈ s.toList, isUnprintable c = false

/-- The characters after which a new line begins. -/
def lineBreaks : List Char :=
  ['\n', Char.ofNat 0x0B, Char.ofNat 0x0C, '\r', Char.ofNat 0x85, Char.ofNat 0x2028,
    Char.ofNat 0x2029]

/-- The text holds no line break. -/
def SingleLine (s : String) : Prop := ∀ c ∈ lineBreaks, c ∉ s.toList

instance (s : String) : Decidable (SingleLine s) :=
  List.decidableBAll (fun c => c ∉ s.toList) lineBreaks

theorem isUnprintable_of_lineBreak {c : Char} (h : c ∈ lineBreaks) : isUnprintable c = true :=
  have hall : lineBreaks.all isUnprintable = true := by decide +kernel
  List.all_eq_true.1 hall c h

/-- A control character. -/
def isControl (c : Char) : Bool := c.toNat < 0x20 || (0x7F ≤ c.toNat && c.toNat ≤ 0x9F)

theorem isUnprintable_of_control {c : Char} (h : isControl c = true) : isUnprintable c = true := by
  have hlow : (0x0, 0x1F) ∈ unprintableBasic := by decide +kernel
  have hhigh : (0x7F, 0xA0) ∈ unprintableBasic := by decide +kernel
  simp only [isControl, Bool.or_eq_true, Bool.and_eq_true, decide_eq_true_eq] at h
  have hbasic : c.toNat < 0x10000 := by omega
  rw [isUnprintable, if_pos hbasic, inRanges]
  refine Bool.or_eq_true_iff.2 (.inr (List.any_eq_true.2 ?_))
  rcases h with h | h
  · exact ⟨_, hlow, by simp; omega⟩
  · exact ⟨_, hhigh, by simp; omega⟩

theorem Printable.notMem {s : String} (h : Printable s) {c : Char} (hc : isUnprintable c = true) :
    c ∉ s.toList := by
  intro hmem
  rw [h c hmem] at hc
  cases hc

@[simp] theorem printable_append {s t : String} : Printable (s ++ t) ↔ Printable s ∧ Printable t := by
  simp only [Printable, String.toList_append, List.forall_mem_append]

/-! ## Plain characters -/

/-- One of the characters from the space to the tilde. -/
def isPlain (c : Char) : Bool := 0x20 ≤ c.toNat && c.toNat ≤ 0x7E

theorem isUnprintable_of_plain {c : Char} (h : isPlain c = true) : isUnprintable c = false := by
  have hranges : ∀ r ∈ unprintableBasic, r.2 < 0x20 ∨ 0x7E < r.1 := by decide +kernel
  simp only [isPlain, Bool.and_eq_true, decide_eq_true_eq] at h
  have hfiller : isFiller c = false := by
    simp only [isFiller, Bool.or_eq_false_iff, beq_eq_false_iff_ne]
    omega
  have hlow : c.toNat < 0x10000 := by omega
  rw [isUnprintable, hfiller, Bool.false_or, if_pos hlow, inRanges, List.any_eq_false]
  intro r hr
  have := hranges r hr
  simp only [Bool.and_eq_true, decide_eq_true_eq, not_and]
  omega

theorem printable_of_plain {s : String} (h : s.toList.all isPlain = true) : Printable s :=
  fun c hc => isUnprintable_of_plain (List.all_eq_true.1 h c hc)

/-! ## Texts put in a row -/

theorem mem_intercalate {c : Char} {sep : String} (hsep : c ∉ sep.toList) (texts : List String) :
    c ∈ (sep.intercalate texts).toList ↔ ∃ text ∈ texts, c ∈ text.toList := by
  rw [String.toList_intercalate]
  induction texts with
  | nil => simp
  | cons text texts ih =>
    cases texts with
    | nil => simp
    | cons next texts => simp_all [List.intercalate]

/-! ## Digits -/

theorem exists_digit {b n : Nat} (hb : 1 < b) {c : Char} (h : c ∈ Nat.toDigits b n) :
    ∃ d < b, Nat.digitChar d = c := by
  induction n using Nat.strongRecOn with
  | ind n ih =>
    rw [Nat.toDigits_eq_if hb] at h
    split at h
    · next hn => exact ⟨n, hn, (List.mem_singleton.1 h).symm⟩
    · next hn =>
      rw [List.mem_append, List.mem_singleton] at h
      rcases h with h | rfl
      · exact ih (n / b) (Nat.div_lt_self (by omega) hb) h
      · exact ⟨n % b, Nat.mod_lt n (by omega), rfl⟩

theorem isUnprintable_digit {b n : Nat} (hb : 1 < b) (hle : b ≤ 16) {c : Char}
    (h : c ∈ Nat.toDigits b n) : isUnprintable c = false := by
  have hdigits : ∀ d < 16, isPlain (Nat.digitChar d) = true := by decide
  obtain ⟨d, hd, rfl⟩ := exists_digit hb h
  exact isUnprintable_of_plain (hdigits d (Nat.lt_of_lt_of_le hd hle))

theorem printable_repr (n : Nat) : Printable n.repr := by
  intro c hc
  rw [Nat.toList_repr] at hc
  exact isUnprintable_digit (by decide) (by decide) hc

/-! ## Quoted texts -/

/-- The characters that escapes are written with, apart from digits. -/
def Quoted.marks : List Char := ['\\', '"', '0', 't', 'n', 'r', 'u', '{', '}']

theorem isUnprintable_mark {l : List Char} (hl : l ⊆ Quoted.marks) {d : Char} (hd : d ∈ l) :
    isUnprintable d = false :=
  have hmarks : Quoted.marks.all isPlain = true := by decide
  isUnprintable_of_plain (List.all_eq_true.1 hmarks d (hl hd))

theorem isUnprintable_escape {c d : Char} (h : d ∈ Quoted.escape c) : isUnprintable d = false := by
  unfold Quoted.escape at h
  split_ifs at h with _ _ _ _ _ _ hhidden
  -- The six escapes of two characters.
  iterate 6 exact isUnprintable_mark (by decide) h
  · rw [List.mem_append, List.mem_append] at h
    rcases h with (h | h) | h
    · exact isUnprintable_mark (by decide) h
    · exact isUnprintable_digit (by decide) (by decide) h
    · exact isUnprintable_mark (by decide) h
  · obtain rfl := List.mem_singleton.1 h
    simpa using fun hd : isUnprintable d = true => hhidden (by simp [hd])

/-- A quoted text can be shown. -/
theorem printable_quote (s : String) : Printable (quote s) := by
  intro c hc
  rw [quote, String.toList_ofList, Quoted.encode, List.mem_cons, List.mem_append, List.mem_singleton,
    List.mem_flatMap] at hc
  rcases hc with rfl | ⟨d, -, hd⟩ | rfl
  · exact isUnprintable_of_plain rfl
  · exact isUnprintable_escape hd
  · exact isUnprintable_of_plain rfl

end MetricStream.Text
