/-
Messages that name the token they are about.

Six kinds of error quote a token, each between words of its own. The words
before the token hold no quote and are different for each kind, so a message
says of which kind it is; and quoting says which token it is, also where the
token is made up to look like a message. None of the messages holds a control
character, whatever the token (`message_names_culprit`).
-/
import MetricStream.Interpreter
import MetricStream.Proofs.Text.Quoted

namespace MetricStream

open Text (Printable isControl quote)

/-! ## What messages are made of -/

/-- A kind of error that quotes a token. -/
inductive FaultKind where
  | unknownCommand
  | commandFailed
  | malformedNumber
  | nonFiniteNumber
  | malformedDuration
  | longDuration
deriving DecidableEq

namespace FaultKind

/-- What the message says before the token. -/
def before : FaultKind → String
  | .unknownCommand => "unknown command: "
  | .commandFailed => "cmd "
  | .malformedNumber => "invalid value "
  | .nonFiniteNumber => "value "
  | .malformedDuration => "invalid duration "
  | .longDuration => "duration "

/-- What the message says after the token. -/
def after : FaultKind → String
  | .commandFailed => " failed"
  | .nonFiniteNumber => " is not a finite number"
  | .longDuration => " is out of range"
  | _ => ""

theorem before_injective {k k' : FaultKind} (h : k.before = k'.before) : k = k' := by
  revert h
  cases k <;> cases k' <;> decide

theorem quote_notMem_before (k : FaultKind) : '"' ∉ k.before.toList := by
  cases k <;> decide

theorem printable_before (k : FaultKind) : Printable k.before := by
  refine Text.printable_of_plain ?_
  cases k <;> decide

theorem printable_after (k : FaultKind) : Printable k.after := by
  refine Text.printable_of_plain ?_
  cases k <;> decide

end FaultKind

/-- What a message is about: the kind of the error, and the token that is at
fault. -/
structure Fault where
  kind : FaultKind
  token : String
deriving DecidableEq

namespace Fault

/-- The message that says so. -/
def text (f : Fault) : String := f.kind.before ++ quote f.token ++ f.kind.after

theorem printable_text (f : Fault) : Printable f.text := by
  rw [text, Text.printable_append, Text.printable_append]
  exact ⟨⟨f.kind.printable_before, Text.printable_quote f.token⟩, f.kind.printable_after⟩

theorem before_of_text (f : Fault) :
    f.text.toList.takeWhile (· ≠ '"') = f.kind.before.toList := by
  have hwords : ∀ c ∈ f.kind.before.toList, decide (c ≠ '"') = true := by
    intro c hc
    exact decide_eq_true fun he => f.kind.quote_notMem_before (he ▸ hc)
  rw [text, String.append_assoc, String.toList_append, List.takeWhile_append_of_pos hwords,
    String.toList_append, Text.toList_quote]
  simp

theorem text_injective {f g : Fault} (h : f.text = g.text) : f = g := by
  have hbefore : f.kind.before = g.kind.before := by
    apply String.toList_injective
    rw [← f.before_of_text, ← g.before_of_text, h]
  have hkind := FaultKind.before_injective hbefore
  rw [text, text, String.append_assoc, String.append_assoc, hkind, String.append_right_inj] at h
  obtain ⟨htoken, -⟩ := Text.quote_append_cancel h
  cases f
  cases g
  simp_all

end Fault

/-! ## What errors are about -/

/-- An error of a command, or of the operands of one. -/
inductive InterpreterError where
  | run (cause : RunError)
  | operand (cause : OperandError)
deriving DecidableEq

namespace InterpreterError

/-- The error's own text, without those of what caused it. -/
def message : InterpreterError → String
  | .run cause => cause.message
  | .operand cause => cause.chain.headD ""

/-- The token that the error quotes, and the kind of the error. Only missing
operands cannot be quoted. -/
def fault? : InterpreterError → Option Fault
  | .run (.unknownCommand typed) => some ⟨.unknownCommand, typed⟩
  | .run (.commandFailed typed _) => some ⟨.commandFailed, typed⟩
  | .operand (.missing _ _) => none
  | .operand (.malformedNumber typed) => some ⟨.malformedNumber, typed⟩
  | .operand (.nonFinite typed) => some ⟨.nonFiniteNumber, typed⟩
  | .operand (.duration (.malformed typed)) => some ⟨.malformedDuration, typed⟩
  | .operand (.duration (.outOfRange typed)) => some ⟨.longDuration, typed⟩

theorem message_eq_text {e : InterpreterError} {f : Fault} (h : e.fault? = some f) :
    e.message = f.text := by
  unfold fault? at h
  split at h
  case h_1 | h_4 | h_6 =>
    cases h
    exact (String.append_empty).symm
  case h_3 => cases h
  all_goals
    cases h
    rfl

end InterpreterError

/-- **A message names its culprit.** Two errors that quote a token have the same
message exactly if they are of one kind and quote the same token, and no message
holds a control character, whatever the token. -/
theorem message_names_culprit {a b : InterpreterError} {f g : Fault} (ha : a.fault? = some f)
    (hb : b.fault? = some g) :
    (a.message = b.message ↔ f = g) ∧ ∀ c ∈ a.message.toList, isControl c = false := by
  rw [InterpreterError.message_eq_text ha, InterpreterError.message_eq_text hb]
  refine ⟨⟨Fault.text_injective, congrArg Fault.text⟩, fun c hc => ?_⟩
  by_contra hcontrol
  rw [Bool.not_eq_false] at hcontrol
  exact f.printable_text.notMem (Text.isUnprintable_of_control hcontrol) hc

/-- A token that goes on like the message of another kind, and ends the line. -/
theorem message_names_culprit_imitation :
    let a : InterpreterError := .operand (.malformedNumber "1\" is not a finite number\n")
    let b : InterpreterError := .operand (.nonFinite "1")
    a.fault? = some ⟨.malformedNumber, "1\" is not a finite number\n"⟩ ∧
    b.fault? = some ⟨.nonFiniteNumber, "1"⟩ ∧
    a.message ≠ b.message ∧ ∀ c ∈ a.message.toList, isControl c = false := by
  intro a b
  have ha : a.fault? = some ⟨.malformedNumber, "1\" is not a finite number\n"⟩ := rfl
  have hb : b.fault? = some ⟨.nonFiniteNumber, "1"⟩ := rfl
  obtain ⟨hequal, hcontrol⟩ := message_names_culprit ha hb
  refine ⟨ha, hb, fun h => ?_, hcontrol⟩
  exact absurd (hequal.1 h) (by decide)

end MetricStream
