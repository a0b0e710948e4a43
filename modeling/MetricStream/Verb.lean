/-
Verbs: the words that start a command.

Six verbs, each with a long spelling and a one-letter one, and each followed
by a fixed number of operands.
-/
namespace MetricStream

/-- What a command does. -/
inductive Verb where
  /-- Set a gauge to a value. -/
  | gauge
  /-- Add a value to a counter. -/
  | count
  /-- Add one to a counter. -/
  | incr
  /-- Subtract one from a counter. -/
  | decr
  /-- Pause before the next command. -/
  | sleep
  /-- Deliver what is buffered. -/
  | flush
deriving DecidableEq, Repr

namespace Verb

/-- The verb that a token spells, in full or by its letter. Case counts. -/
def lookup? : String → Option Verb
  | "gauge" | "g" => some .gauge
  | "count" | "c" => some .count
  | "incr" | "i" => some .incr
  | "decr" | "d" => some .decr
  | "sleep" | "s" => some .sleep
  | "flush" | "f" => some .flush
  | _ => none

/-- How many operands follow the verb. -/
def arity : Verb → Nat
  | .gauge => 2
  | .count => 2
  | .incr => 1
  | .decr => 1
  | .sleep => 1
  | .flush => 0

/-- The long spelling. -/
def name : Verb → String
  | .gauge => "gauge"
  | .count => "count"
  | .incr => "incr"
  | .decr => "decr"
  | .sleep => "sleep"
  | .flush => "flush"

instance : ToString Verb := ⟨name⟩

/-- The one-letter spelling. -/
def letter : Verb → String
  | .gauge => "g"
  | .count => "c"
  | .incr => "i"
  | .decr => "d"
  | .sleep => "s"
  | .flush => "f"

theorem lookup?_name (v : Verb) : lookup? v.name = some v := by cases v <;> rfl

theorem lookup?_letter (v : Verb) : lookup? v.letter = some v := by cases v <;> rfl

/-- A verb has no third spelling. -/
theorem lookup?_eq_some {token : String} {v : Verb} (h : lookup? token = some v) :
    token = v.name ∨ token = v.letter := by
  unfold lookup? at h
  split at h <;> cases h <;> simp [name, letter]

end Verb

end MetricStream
