/-
Reading a typed duration.

An optional sign stands before either a bare `0` or one or more groups. Each
group counts its whole units and the nanoseconds of its fraction, rounded down
and read to at most eighteen digits; the groups add up. A group or a running
sum past `2 ^ 63 - 1` nanoseconds is out of range. A negative duration is read
the same way and then counts as no time at all.
-/
import MetricStream.Duration.Group
import MetricStream.Duration.Word
import MetricStream.Text.Quoted
import MetricStream.Text.Sign

namespace MetricStream

namespace Duration

/-- Why a text is no duration. Both carry the text as typed. -/
inductive ReadError where
  /-- It is not of the form. -/
  | malformed (typed : String)
  /-- It is longer than a duration can be. -/
  | outOfRange (typed : String)
deriving DecidableEq, Repr

def ReadError.message : ReadError → String
  | .malformed typed => "invalid duration " ++ Text.quote typed
  | .outOfRange typed => "duration " ++ Text.quote typed ++ " is out of range"

/-- How many digits after the point are read. -/
def fractionDigits : Nat := 18

/-- The nanoseconds of a fraction's digits in a unit, rounded down. -/
def fractionNanos (digits : List Char) (scale : Word) : Option Word :=
  match Word.ofDigits? digits with
  | none => none
  | some numerator => some (numerator * scale / BitVec.ofNat 128 (tenTo digits.length))

/-- The word, if it is at most the longest duration. -/
def inRange? (w : Word) : Option Word := if w.toNat ≤ maxNanos then some w else none

/-- The nanoseconds of one group, if they are in range. -/
def Group.nanos? (g : Group) : Option Word := do
  let scale := BitVec.ofNat 128 g.unit.nanos
  let count ← Word.ofDigits? g.whole
  let whole ← Word.mul? count scale
  let part ← fractionNanos (g.fraction.take fractionDigits) scale
  let sum ← Word.add? whole part
  inRange? sum

/-- The nanoseconds of the groups added to `total`, if all of it is in range. -/
def totalFrom (total : Word) : List Group → Option Word
  | [] => some total
  | g :: gs => do
    let nanos ← g.nanos?
    let sum ← Word.add? total nanos
    let sum ← inRange? sum
    totalFrom sum gs

/-- The duration that a text spells. Nanoseconds in range fit 64 bits. -/
def read (typed : String) : Except ReadError Duration :=
  let (negative, body) := Text.takeSign typed.toList
  if body = ['0'] then .ok zero
  else if Group.isExpression body then
    match totalFrom 0 (Group.scan body) with
    | none => .error (.outOfRange typed)
    | some total => .ok (if negative then zero else ⟨(total.setWidth 64).toNat⟩)
  else .error (.malformed typed)

end Duration

end MetricStream
