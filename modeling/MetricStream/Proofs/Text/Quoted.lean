/-
Quoted texts can be told apart.

Each character between the quotes can be read back, since its escape says where
it ends (`next?_escape`), and none of them starts with a bare quote. So a quoted
text says what it quotes and where it ends, whatever stands behind it
(`quote_append_cancel`).
-/
import Mathlib.Data.List.TakeWhile
import MetricStream.Proofs.Text.Printable
import MetricStream.Text.Hex

namespace MetricStream.Text

namespace Quoted

/-! ## Code points -/

/-- The number that digits spell. -/
def codePoint (digits : List Char) : Nat :=
  digits.foldl (fun n c => n * 16 + (hexValue? c).getD 0) 0

theorem codePoint_toDigits (n : Nat) : codePoint (Nat.toDigits 16 n) = n := by
  induction n using Nat.strongRecOn with
  | ind n ih =>
    rw [Nat.toDigits_eq_if (by decide)]
    split
    · next hn => simp [codePoint, hexValue?_digitChar hn]
    · next hn =>
      have hdiv := ih (n / 16) (by omega)
      have hmod := hexValue?_digitChar (Nat.mod_lt n (show 16 > 0 by decide))
      rw [codePoint] at hdiv ⊢
      rw [List.foldl_append, hdiv, List.foldl_cons, hmod, Option.getD_some, List.foldl_nil]
      omega

theorem brace_notMem_toDigits (n : Nat) : '}' ∉ Nat.toDigits 16 n := by
  intro h
  obtain ⟨d, hd, hchar⟩ := exists_digit (by decide) h
  have hall : ∀ d < 16, Nat.digitChar d ≠ '}' := by decide
  exact hall d hd hchar

/-! ## Reading back -/

/-- The character that an escape names, after its backslash, and the rest. -/
def escaped? : List Char → Option (Char × List Char)
  | '"' :: cs => some ('"', cs)
  | '\\' :: cs => some ('\\', cs)
  | '0' :: cs => some (Char.ofNat 0, cs)
  | 't' :: cs => some ('\t', cs)
  | 'n' :: cs => some ('\n', cs)
  | 'r' :: cs => some ('\r', cs)
  | 'u' :: '{' :: cs =>
    some (Char.ofNat (codePoint (cs.takeWhile (· ≠ '}'))), (cs.dropWhile (· ≠ '}')).tail)
  | _ => none

/-- The character that is written at the front, and the rest; none is where the
closing quote stands. -/
def next? : List Char → Option (Char × List Char)
  | [] => none
  | c :: cs => if c = '"' then none else if c = '\\' then escaped? cs else some (c, cs)

theorem escaped?_codePoint (c : Char) (rest : List Char) :
    escaped? ('u' :: '{' :: (Nat.toDigits 16 c.toNat ++ '}' :: rest)) = some (c, rest) := by
  have hdigits : ∀ d ∈ Nat.toDigits 16 c.toNat, decide (d ≠ '}') = true := by
    intro d hd
    exact decide_eq_true fun he => brace_notMem_toDigits c.toNat (he ▸ hd)
  rw [escaped?, List.takeWhile_append_of_pos hdigits, List.dropWhile_append_of_pos hdigits]
  simp [codePoint_toDigits]

theorem next?_escape (c : Char) (rest : List Char) : next? (escape c ++ rest) = some (c, rest) := by
  unfold escape
  split_ifs with hquote hslash hnul htab hline hreturn hhidden
  iterate 6 subst c; rfl
  · have hcode : next? (['\\', 'u', '{'] ++ Nat.toDigits 16 c.toNat ++ ['}'] ++ rest) =
        escaped? ('u' :: '{' :: (Nat.toDigits 16 c.toNat ++ '}' :: rest)) := by
      simp [next?]
    rw [hcode, escaped?_codePoint]
  · simp [next?, hquote, hslash]

/-- What is written before a closing quote says what it is and where it ends. -/
theorem escapes_cancel {xs ys rest rest' : List Char}
    (h : xs.flatMap escape ++ '"' :: rest = ys.flatMap escape ++ '"' :: rest') :
    xs = ys ∧ rest = rest' := by
  have hend (rest : List Char) : next? ('"' :: rest) = none := rfl
  induction xs generalizing ys with
  | nil =>
    cases ys with
    | nil => exact ⟨rfl, (List.cons.inj h).2⟩
    | cons d ys =>
      have hnext := congrArg next? h
      rw [List.flatMap_cons, List.append_assoc, next?_escape, List.flatMap_nil, List.nil_append,
        hend] at hnext
      cases hnext
  | cons c xs ih =>
    have hnext := congrArg next? h
    rw [List.flatMap_cons, List.append_assoc, next?_escape] at hnext
    cases ys with
    | nil =>
      rw [List.flatMap_nil, List.nil_append, hend] at hnext
      cases hnext
    | cons d ys =>
      rw [List.flatMap_cons, List.append_assoc, next?_escape, Option.some.injEq, Prod.mk.injEq] at hnext
      obtain ⟨rfl, hlater⟩ := hnext
      obtain ⟨rfl, hrest⟩ := ih hlater
      exact ⟨rfl, hrest⟩

end Quoted

theorem toList_quote (s : String) :
    (quote s).toList = '"' :: (s.toList.flatMap Quoted.escape ++ ['"']) :=
  String.toList_ofList

/-- **A quoted text says what it quotes**, and where it ends. -/
theorem quote_append_cancel {s t rest rest' : String} (h : quote s ++ rest = quote t ++ rest') :
    s = t ∧ rest = rest' := by
  have hlist := congrArg String.toList h
  simp only [String.toList_append, toList_quote, List.cons_append, List.append_assoc,
    List.nil_append, List.cons.injEq, true_and] at hlist
  obtain ⟨hquoted, hrest⟩ := Quoted.escapes_cancel hlist
  exact ⟨String.toList_injective hquoted, String.toList_injective hrest⟩

end MetricStream.Text
