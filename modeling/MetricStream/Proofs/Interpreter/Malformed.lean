/-
Tokens whose first command is no command.

The first token spells no verb, or operands are missing, or the operand that has
to be a number or a duration is none. A run of such tokens is over at once: it
fails, nothing has happened in it, and the world is what it was
(`interpret_of_malformed`). The client has no say in it.
-/
import MetricStream.Proofs.Interpreter.Steps

namespace MetricStream

/-- The first command of the tokens is malformed, and the error says how. -/
inductive Malformed : List String → RunError → Prop where
  | unknown {token rest} (h : Verb.lookup? token = none) :
    Malformed (token :: rest) (.unknownCommand token)
  | missing {token verb rest} (h : Verb.lookup? token = some verb) (hlt : rest.length < verb.arity) :
    Malformed (token :: rest)
      (.commandFailed token (.operand (.missing verb.arity rest.length)))
  | value {token verb name value rest e} (h : Verb.lookup? token = some verb)
    (hverb : verb = .gauge ∨ verb = .count) (he : readValue value = .error e) :
    Malformed (token :: name :: value :: rest) (.commandFailed token (.operand e))
  | pause {token pause rest e} (h : Verb.lookup? token = some .sleep)
    (he : readPause pause = .error e) :
    Malformed (token :: pause :: rest) (.commandFailed token (.operand e))

variable {σ : Type} {ctx : Context} {client : Client σ}

/-- **A malformed command has no effect.** -/
theorem interpret_of_malformed {tokens : List String} {e : RunError} (h : Malformed tokens e)
    (w : World σ) : interpret ctx client tokens w = ⟨.error e, [], w⟩ := by
  cases h with
  | unknown h =>
    rw [interpret_stuck (stuck_of_unknown h), ending, h]
  | missing h hlt =>
    rw [interpret_stuck (stuck_of_short h hlt), ending, h]
  | @value token verb name value rest e h hverb he =>
    have hp : (⟨token, verb, [name, value]⟩ : Phrase).Whole :=
      ⟨h, by rcases hverb with rfl | rfl <;> rfl⟩
    refine interpret_malformed hp rest w ?_
    rcases hverb with rfl | rfl <;> simp only [Phrase.command, he] <;> rfl
  | @pause token pause rest e h he =>
    have hp : (⟨token, .sleep, [pause]⟩ : Phrase).Whole := ⟨h, rfl⟩
    refine interpret_malformed hp rest w ?_
    simp only [Phrase.command, he]
    rfl

end MetricStream
