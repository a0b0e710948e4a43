/-
Groups: the parts that a typed duration is made of.

A group is a decimal directly followed by a unit, as in `1.5h`. `Group.lex?`
takes one off the front of a text, with no digit required; `Group.scan` finds
all of them in order, stepping over any character that starts none. A text is
an expression when it is groups and nothing else, each with a digit.
-/
import MetricStream.Duration

namespace MetricStream.Duration

/-- The units a duration can be typed in. -/
inductive TimeUnit where
  | nanosecond
  | microsecond
  | millisecond
  | second
  | minute
  | hour
deriving DecidableEq, Repr

namespace TimeUnit

/-- How many nanoseconds a unit has. -/
def nanos : TimeUnit → Nat
  | .nanosecond => 1
  | .microsecond => 1000
  | .millisecond => 1000000
  | .second => 1000000000
  | .minute => 60 * 1000000000
  | .hour => 3600 * 1000000000

/-- Takes a unit off the front. The micro sign and the Greek letter both stand
for micro, and `ms` is taken whole where `m` would do. -/
def lex? : List Char → Option (TimeUnit × List Char)
  | 'n' :: 's' :: rest => some (.nanosecond, rest)
  | 'u' :: 's' :: rest => some (.microsecond, rest)
  | 'µ' :: 's' :: rest => some (.microsecond, rest)
  | 'μ' :: 's' :: rest => some (.microsecond, rest)
  | 'm' :: 's' :: rest => some (.millisecond, rest)
  | 's' :: rest => some (.second, rest)
  | 'm' :: rest => some (.minute, rest)
  | 'h' :: rest => some (.hour, rest)
  | _ => none

theorem lex?_length {cs rest : List Char} {u : TimeUnit} (h : lex? cs = some (u, rest)) :
    rest.length < cs.length := by
  unfold lex? at h
  split at h <;> first | (cases h; simp +arith) | cases h

end TimeUnit

/-- A decimal and its unit: the digits before the point, those after it, and
the unit. -/
structure Group where
  whole : List Char
  fraction : List Char
  unit : TimeUnit
deriving DecidableEq, Repr

/-- The digits after a point at the front, if there is one, and the rest. -/
def lexFraction : List Char → List Char × List Char
  | '.' :: cs => (cs.takeWhile Char.isDigit, cs.dropWhile Char.isDigit)
  | cs => ([], cs)

namespace Group

/-- Takes a group off the front. -/
def lex? (cs : List Char) : Option (Group × List Char) :=
  let (fraction, rest) := lexFraction (cs.dropWhile Char.isDigit)
  match TimeUnit.lex? rest with
  | some (unit, rest) => some (⟨cs.takeWhile Char.isDigit, fraction, unit⟩, rest)
  | none => none

theorem length_dropWhile_le (p : Char → Bool) (cs : List Char) :
    (cs.dropWhile p).length ≤ cs.length :=
  (List.dropWhile_sublist p).length_le

theorem lexFraction_length (cs : List Char) : (lexFraction cs).2.length ≤ cs.length := by
  unfold lexFraction
  split
  · exact Nat.le_succ_of_le (length_dropWhile_le _ _)
  · exact Nat.le_refl _

theorem lex?_length {cs rest : List Char} {g : Group} (h : lex? cs = some (g, rest)) :
    rest.length < cs.length := by
  unfold lex? at h
  simp only at h
  split at h
  · rename_i u r hu
    cases h
    exact Nat.lt_of_lt_of_le (TimeUnit.lex?_length hu)
      (Nat.le_trans (lexFraction_length _) (length_dropWhile_le _ _))
  · cases h

/-- The decimal has a digit. -/
def hasDigit (g : Group) : Bool := g.whole ≠ [] || g.fraction ≠ []

/-- Every group in the text, in order. A character that starts none is stepped
over. -/
def scan (cs : List Char) : List Group :=
  match cs with
  | [] => []
  | c :: cs =>
    match _h : lex? (c :: cs) with
    | some (g, rest) => g :: scan rest
    | none => scan cs
termination_by cs.length
decreasing_by
  · exact lex?_length _h
  · simp

/-- The text is one or more groups, each with a digit, and nothing else. -/
def isExpression (cs : List Char) : Bool :=
  match _h : lex? cs with
  | some (g, rest) => g.hasDigit && (rest.isEmpty || isExpression rest)
  | none => false
termination_by cs.length
decreasing_by exact lex?_length _h

end Group

end MetricStream.Duration
