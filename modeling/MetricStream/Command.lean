/-
Commands: a verb and its operands, read.

`Command.read` takes the operands of a verb off the front of the tokens and
reads them before anything is done: a command that lacks an operand, or whose
value or duration cannot be read, has no effect at all. Operands are taken
word for word, so one that spells a verb is still an operand.
-/
import MetricStream.Binary64.Literal
import MetricStream.Duration.Reading
import MetricStream.Log.Event

namespace MetricStream

/-- What is wrong with the tokens after a verb. -/
inductive OperandError where
  | missing (expected found : Nat)
  | malformedNumber (typed : String)
  | nonFinite (typed : String)
  | duration (cause : Duration.ReadError)
deriving DecidableEq

namespace OperandError

/-- Why a text is no number. -/
def numberReason (typed : String) : String :=
  if typed.toList = [] then "cannot parse float from empty string" else "invalid float literal"

/-- The error's own text, and after it the texts of what caused it. -/
def chain : OperandError → List String
  | .missing expected found =>
    ["missing operand: expected " ++ expected.repr ++ ", found " ++ found.repr]
  | .malformedNumber typed => ["invalid value " ++ Text.quote typed, numberReason typed]
  | .nonFinite typed => ["value " ++ Text.quote typed ++ " is not a finite number"]
  | .duration cause => [cause.message]

end OperandError

/-- The finite number that an operand spells. -/
def readValue (typed : String) : Except OperandError Binary64 :=
  match Binary64.read? typed with
  | none => .error (.malformedNumber typed)
  | some value => if value.isFinite then .ok value else .error (.nonFinite typed)

/-- The duration that an operand spells. -/
def readPause (typed : String) : Except OperandError Duration :=
  match Duration.read typed with
  | .error cause => .error (.duration cause)
  | .ok duration => .ok duration

/-- A command ready to be carried out; metrics have their full names. -/
inductive Command where
  | gauge (metric : String) (value : Binary64)
  | count (metric : String) (value : Binary64)
  | incr (metric : String)
  | decr (metric : String)
  | sleep (duration : Duration)
  | flush
deriving DecidableEq

namespace Command

/-- Takes the operands of a verb off the front: the command, and the tokens
after it. -/
def read (ctx : Context) : Verb → List String → Except OperandError (Command × List String)
  | .gauge, name :: value :: rest =>
    (readValue value).map fun v => (.gauge (ctx.qualify name) v, rest)
  | .count, name :: value :: rest =>
    (readValue value).map fun v => (.count (ctx.qualify name) v, rest)
  | .incr, name :: rest => .ok (.incr (ctx.qualify name), rest)
  | .decr, name :: rest => .ok (.decr (ctx.qualify name), rest)
  | .sleep, pause :: rest => (readPause pause).map fun d => (.sleep d, rest)
  | .flush, rest => .ok (.flush, rest)
  | verb, rest => .error (.missing verb.arity rest.length)

/-- How the command is reported. -/
def event : Command → Log.Event
  | .gauge metric value => .gauge metric value
  | .count metric value => .count metric value
  | .incr metric => .incr metric
  | .decr metric => .decr metric
  | .sleep duration => .sleep duration
  | .flush => .flush

theorem length_read {ctx : Context} {verb : Verb} {tokens rest : List String} {c : Command}
    (h : read ctx verb tokens = .ok (c, rest)) : tokens.length = verb.arity + rest.length := by
  unfold read at h
  split at h
  · cases hv : readValue _ <;> rw [hv] at h <;> cases h
    simp [Verb.arity]; omega
  · cases hv : readValue _ <;> rw [hv] at h <;> cases h
    simp [Verb.arity]; omega
  · cases h; simp [Verb.arity]; omega
  · cases h; simp [Verb.arity]; omega
  · cases hv : readPause _ <;> rw [hv] at h <;> cases h
    simp [Verb.arity]; omega
  · cases h; simp [Verb.arity]
  · cases h

end Command

end MetricStream
