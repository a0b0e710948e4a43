/-
Durations: whole nanoseconds, and the text that shows one.

The text counts in the largest unit of seconds, milliseconds, microseconds and
nanoseconds that the duration reaches, with as many decimals as it takes to be
exact: no zero ends them, and there is no point without them.
-/
import MetricStream.Power

namespace MetricStream

/-- A length of time, never negative. -/
structure Duration where
  nanos : Nat
deriving DecidableEq, Repr

namespace Duration

def zero : Duration := ⟨0⟩

def ofMillis (n : Nat) : Duration := ⟨n * 1000000⟩

/-- The longest duration that can be typed, in nanoseconds: `2 ^ 63 - 1`. -/
def maxNanos : Nat := 9223372036854775807

/-- The decimals of `part / tenTo places` after the point, without the zeros at
their end, and with no point if none is left. -/
def decimals (places part : Nat) : List Char :=
  let digits := Nat.toDigits 10 part
  let padded := List.replicate (places - digits.length) '0' ++ digits
  let kept := (padded.reverse.dropWhile (· == '0')).reverse
  if kept = [] then [] else '.' :: kept

/-- The duration in units of `tenTo places` nanoseconds, exactly. -/
def inUnits (d : Duration) (places : Nat) (name : List Char) : List Char :=
  Nat.toDigits 10 (d.nanos / tenTo places) ++ decimals places (d.nanos % tenTo places) ++ name

/-- The text of a duration. -/
def text (d : Duration) : List Char :=
  if tenTo 9 ≤ d.nanos then d.inUnits 9 ['s']
  else if tenTo 6 ≤ d.nanos then d.inUnits 6 ['m', 's']
  else if tenTo 3 ≤ d.nanos then d.inUnits 3 ['µ', 's']
  else d.inUnits 0 ['n', 's']

instance : ToString Duration := ⟨fun d => String.ofList d.text⟩

/-! ## One duration of each unit -/

example : String.ofList (text ⟨5400000000000⟩) = "5400s" := by decide +kernel
example : String.ofList (text ⟨1000000001⟩) = "1.000000001s" := by decide +kernel
example : String.ofList (text ⟨1500000⟩) = "1.5ms" := by decide +kernel
example : String.ofList (text ⟨4000⟩) = "4µs" ∧ String.ofList (text ⟨0⟩) = "0ns" := by decide +kernel

end Duration

end MetricStream
