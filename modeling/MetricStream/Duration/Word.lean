/-
Words of 128 bits: what durations are computed in.

A word's own arithmetic wraps. The operations named here do not: each gives
nothing where the exact result has no word.
-/
import MetricStream.Power

namespace MetricStream.Duration

/-- A natural number below `2 ^ 128`. -/
abbrev Word := BitVec 128

namespace Word

/-- The word of a natural number, if it has one. -/
def ofNat? (n : Nat) : Option Word := if n < twoTo 128 then some (BitVec.ofNat 128 n) else none

/-- The word that decimal digits spell, if it has one. -/
def ofDigits? (digits : List Char) : Option Word := ofNat? (Nat.ofDigitChars 10 digits 0)

/-- The exact product, if it has a word. -/
def mul? (a b : Word) : Option Word := if a.toNat * b.toNat < twoTo 128 then some (a * b) else none

/-- The exact sum, if it has a word. -/
def add? (a b : Word) : Option Word := if a.toNat + b.toNat < twoTo 128 then some (a + b) else none

/-! ## What they give -/

theorem ofNat?_eq_some {n : Nat} {w : Word} (h : ofNat? n = some w) : w.toNat = n := by
  unfold ofNat? at h
  split at h
  · rename_i hn
    cases h
    exact Nat.mod_eq_of_lt hn
  · cases h

theorem mul?_eq_some {a b w : Word} (h : mul? a b = some w) : w.toNat = a.toNat * b.toNat := by
  unfold mul? at h
  split at h
  · rename_i hn
    cases h
    rw [BitVec.toNat_mul]
    exact Nat.mod_eq_of_lt hn
  · cases h

theorem add?_eq_some {a b w : Word} (h : add? a b = some w) : w.toNat = a.toNat + b.toNat := by
  unfold add? at h
  split at h
  · rename_i hn
    cases h
    rw [BitVec.toNat_add]
    exact Nat.mod_eq_of_lt hn
  · cases h

end Word

end MetricStream.Duration
