/-
Which writes a command asks for.

A gauge, a count, an increment and a decrement write to one series each: that of
their kind, their metric's full name and all tags (`Phrase.write_of_verb`).
What they write is finite, for an operand that is no finite number is not read,
and no command closes the client (`Phrase.call?_safe`).
-/
import MetricStream.Proofs.Client.History
import MetricStream.Proofs.Interpreter.Reference

namespace MetricStream

/-- The series that a command writes to, if it is a write. -/
def Phrase.series? (ctx : Context) (p : Phrase) : Option SeriesKey :=
  match p.verb, p.operands with
  | .gauge, name :: _ => some ⟨.gauge, ctx.qualify name, ctx.tags⟩
  | .count, name :: _ => some ⟨.count, ctx.qualify name, ctx.tags⟩
  | .incr, name :: _ => some ⟨.count, ctx.qualify name, ctx.tags⟩
  | .decr, name :: _ => some ⟨.count, ctx.qualify name, ctx.tags⟩
  | _, _ => none

/-- The phrases that spell a command, by its verb. -/
inductive Phrase.Spells (ctx : Context) : Phrase → Command → Prop where
  | gauge {typed name value v} (h : readValue value = .ok v) :
    Spells ctx ⟨typed, .gauge, [name, value]⟩ (.gauge (ctx.qualify name) v)
  | count {typed name value v} (h : readValue value = .ok v) :
    Spells ctx ⟨typed, .count, [name, value]⟩ (.count (ctx.qualify name) v)
  | incr {typed name} : Spells ctx ⟨typed, .incr, [name]⟩ (.incr (ctx.qualify name))
  | decr {typed name} : Spells ctx ⟨typed, .decr, [name]⟩ (.decr (ctx.qualify name))
  | sleep {typed pause d} (h : readPause pause = .ok d) :
    Spells ctx ⟨typed, .sleep, [pause]⟩ (.sleep d)
  | flush {typed} : Spells ctx ⟨typed, .flush, []⟩ .flush

section

variable {ctx : Context} {p : Phrase}

theorem exists_of_map_eq_ok {ε α β : Type} {f : α → β} {x : Except ε α} {b : β}
    (h : x.map f = .ok b) : ∃ a, x = .ok a ∧ f a = b := by
  cases x with
  | error e => cases h
  | ok a => exact ⟨a, rfl, Except.ok.inj h⟩

theorem Phrase.spells_of_command {c : Command} (h : p.command ctx = .ok c) : p.Spells ctx c := by
  obtain ⟨typed, verb, operands⟩ := p
  unfold command at h
  split at h
  · next hv ho =>
    obtain ⟨v, hread, rfl⟩ := exists_of_map_eq_ok h
    cases hv; cases ho
    exact .gauge hread
  · next hv ho =>
    obtain ⟨v, hread, rfl⟩ := exists_of_map_eq_ok h
    cases hv; cases ho
    exact .count hread
  · next hv ho => cases hv; cases ho; cases h; exact .incr
  · next hv ho => cases hv; cases ho; cases h; exact .decr
  · next hv ho =>
    obtain ⟨d, hread, rfl⟩ := exists_of_map_eq_ok h
    cases hv; cases ho
    exact .sleep hread
  · next hv ho => cases hv; cases ho; cases h; exact .flush
  · cases h

theorem readValue_finite {typed : String} {v : Binary64} (h : readValue typed = .ok v) :
    v.isFinite = true := by
  unfold readValue at h
  split at h
  · cases h
  split at h
  · next hv => exact Except.ok.inj h ▸ hv
  · cases h

theorem Phrase.call?_safe {call : Call} (h : p.call? ctx = some call) :
    call ≠ .close ∧
      ∀ now w, (⟨now, call⟩ : Turn).write? = some w → w.value.isFinite = true := by
  have hunit : Binary64.unit.isFinite = true := by decide +kernel
  have hminus : (-Binary64.unit).isFinite = true := by decide +kernel
  obtain ⟨c, hc, hd⟩ := call?_eq_some.1 h
  cases spells_of_command hc <;> simp only [Command.deed, Deed.ask.injEq, reduceCtorEq] at hd <;>
    subst hd <;> refine ⟨Call.noConfusion, fun now w hw => ?_⟩ <;>
    simp only [Turn.write?, Option.some.injEq, reduceCtorEq] at hw <;> subst hw <;> dsimp only
  case gauge hread => exact readValue_finite hread
  case count hread => exact readValue_finite hread
  case incr => exact hunit
  case decr => exact hminus

theorem Phrase.write_of_verb {c : Command} (hc : p.command ctx = .ok c)
    (hv : p.verb ∈ [Verb.gauge, .count, .incr, .decr]) :
    ∃ k call, p.series? ctx = some k ∧ p.call? ctx = some call ∧
      ∀ now, ∃ w, (⟨now, call⟩ : Turn).write? = some w ∧ w.key = k := by
  cases spells_of_command hc with
  | gauge hread => exact ⟨_, _, rfl, call?_ask hc rfl, fun now => ⟨_, rfl, rfl⟩⟩
  | count hread => exact ⟨_, _, rfl, call?_ask hc rfl, fun now => ⟨_, rfl, rfl⟩⟩
  | incr => exact ⟨_, _, rfl, call?_ask hc rfl, fun now => ⟨_, rfl, rfl⟩⟩
  | decr => exact ⟨_, _, rfl, call?_ask hc rfl, fun now => ⟨_, rfl, rfl⟩⟩
  | sleep hread => simp at hv
  | flush => simp at hv

end

end MetricStream
