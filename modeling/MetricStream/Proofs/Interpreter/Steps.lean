/-
One command at a time: what `interpret` does with the command at the front of
its tokens, whatever the client.

A command is either carried out, and the rest of the tokens is interpreted in
the world it leaves, or the run ends with it: its operands cannot be read
(nothing is asked of the client), or the client refuses the one call it makes.
Each case is an equation here, and what is proved of runs goes by these
equations and not by the definition.
-/
import Mathlib.Data.List.Basic
import MetricStream.Proofs.Interpreter.Phrases

namespace MetricStream

/-- What carrying a command out comes down to. -/
inductive Deed where
  /-- One call to the client. -/
  | ask (call : Call)
  /-- No call, and time passes. -/
  | pause (duration : Duration)
deriving DecidableEq

/-- A command's one call, with all tags; a pause makes none. -/
def Command.deed (tags : List String) : Command → Deed
  | .gauge metric value => .ask (.gauge metric value tags)
  | .count metric value => .ask (.count metric value tags)
  | .incr metric => .ask (.increment metric tags)
  | .decr metric => .ask (.decrement metric tags)
  | .sleep duration => .pause duration
  | .flush => .ask .flush

/-- The command that a phrase spells: the namespace stands before the first
operand, and the second of a gauge or a count is its value. -/
def Phrase.command (ctx : Context) (p : Phrase) : Except OperandError Command :=
  match p.verb, p.operands with
  | .gauge, [name, value] => (readValue value).map (.gauge (ctx.scope.text ++ name))
  | .count, [name, value] => (readValue value).map (.count (ctx.scope.text ++ name))
  | .incr, [name] => .ok (.incr (ctx.scope.text ++ name))
  | .decr, [name] => .ok (.decr (ctx.scope.text ++ name))
  | .sleep, [pause] => (readPause pause).map .sleep
  | .flush, [] => .ok .flush
  | verb, operands => .error (.missing verb.arity operands.length)

/-- How a run ends that has nothing before it but these tokens, of which no
command can be made. -/
def ending : List String → Except RunError Nat
  | [] => .ok 0
  | token :: left =>
    match Verb.lookup? token with
    | none => .error (.unknownCommand token)
    | some verb => .error (.commandFailed token (.operand (.missing verb.arity left.length)))

/-! ## Reading and performing -/

theorem Command.read_whole {ctx : Context} {p : Phrase} (hp : p.Whole) (rest : List String) :
    Command.read ctx p.verb (p.operands ++ rest) = (p.command ctx).map (·, rest) := by
  obtain ⟨typed, verb, operands⟩ := p
  have hlen : operands.length = verb.arity := hp.length
  -- The operands are as many as the verb takes, so their list is known up to its members.
  cases verb with
  | gauge =>
    obtain ⟨name, value, rfl⟩ := List.length_eq_two.1 hlen
    simp only [List.cons_append, List.nil_append, Command.read, Phrase.command]
    cases readValue value <;> rfl
  | count =>
    obtain ⟨name, value, rfl⟩ := List.length_eq_two.1 hlen
    simp only [List.cons_append, List.nil_append, Command.read, Phrase.command]
    cases readValue value <;> rfl
  | incr => obtain ⟨name, rfl⟩ := List.length_eq_one_iff.1 hlen; rfl
  | decr => obtain ⟨name, rfl⟩ := List.length_eq_one_iff.1 hlen; rfl
  | sleep =>
    obtain ⟨pause, rfl⟩ := List.length_eq_one_iff.1 hlen
    simp only [List.cons_append, List.nil_append, Command.read, Phrase.command]
    cases readPause pause <;> rfl
  | flush => obtain rfl := List.eq_nil_of_length_eq_zero hlen; rfl

theorem Command.read_short {ctx : Context} {verb : Verb} {tokens : List String}
    (h : tokens.length < verb.arity) :
    Command.read ctx verb tokens = .error (.missing verb.arity tokens.length) := by
  unfold Command.read
  split
  case h_7 => rfl
  -- In every other case the list has as many members as the verb takes.
  all_goals
    exfalso
    simp only [Verb.arity, List.length_cons] at h
    omega

theorem Command.perform_ask {σ : Type} {client : Client σ} {tags : List String} {c : Command}
    {call : Call} (h : c.deed tags = .ask call) (w : World σ) :
    c.perform client tags w = ask client call c.event w := by
  cases c <;> simp only [Command.deed, Deed.ask.injEq, reduceCtorEq] at h <;> subst h <;> rfl

theorem Command.perform_pause {σ : Type} {client : Client σ} {tags : List String} {c : Command}
    {d : Duration} (h : c.deed tags = .pause d) (w : World σ) :
    c.perform client tags w =
      ⟨.ok (), [.logged c.event, .paused d], ⟨w.client, w.now.after d⟩⟩ := by
  cases c <;> simp only [Command.deed, Deed.pause.injEq, reduceCtorEq] at h
  subst h
  rfl

/-! ## The equations -/

section

variable {σ : Type} {ctx : Context} {client : Client σ}

theorem interpret_stuck {rest : List String} (h : Stuck rest) (w : World σ) :
    interpret ctx client rest w = ⟨ending rest, [], w⟩ := by
  rcases h.cases with rfl | ⟨token, more, rfl, hv⟩ | ⟨token, more, verb, rfl, hv, hlt⟩
  · rw [interpret, ending]
  · rw [interpret, ending, hv]
  · rw [interpret, ending, hv]
    simp only
    split
    · next e he =>
      rw [Command.read_short hlt] at he
      cases he
      rfl
    · next c more' he =>
      rw [Command.read_short hlt] at he
      cases he

variable {p : Phrase} (hp : p.Whole) (rest : List String) (w : World σ)
include hp

theorem interpret_malformed {e : OperandError} (h : p.command ctx = .error e) :
    interpret ctx client (p.tokens ++ rest) w =
      ⟨.error (.commandFailed p.typed (.operand e)), [], w⟩ := by
  have hr : Command.read ctx p.verb (p.operands ++ rest) = .error e := by
    rw [Command.read_whole hp, h]; rfl
  rw [Phrase.tokens, List.cons_append, interpret, hp.spelt]
  simp only
  split
  · next e' he =>
    rw [hr] at he
    cases he
    rfl
  · next he =>
    rw [hr] at he
    cases he

/-- A command that can be read is performed, and then the run is over or goes
on with the tokens after it. -/
theorem interpret_command {c : Command} (h : p.command ctx = .ok c) :
    interpret ctx client (p.tokens ++ rest) w =
      match (c.perform client ctx.tags w).result with
      | .error e => ⟨.error (.commandFailed p.typed (.client e)),
          (c.perform client ctx.tags w).trace, (c.perform client ctx.tags w).world⟩
      | .ok () => (interpret ctx client rest (c.perform client ctx.tags w).world).afterOne
          (c.perform client ctx.tags w).trace := by
  have hr : Command.read ctx p.verb (p.operands ++ rest) = .ok (c, rest) := by
    rw [Command.read_whole hp, h]; rfl
  rw [Phrase.tokens, List.cons_append, interpret, hp.spelt]
  simp only
  split
  · next e' he =>
    rw [hr] at he
    cases he
  · next c' rest' he =>
    rw [hr] at he
    cases he
    rfl

theorem interpret_pause {c : Command} {d : Duration} (h : p.command ctx = .ok c)
    (hd : c.deed ctx.tags = .pause d) :
    interpret ctx client (p.tokens ++ rest) w =
      (interpret ctx client rest ⟨w.client, w.now.after d⟩).afterOne
        [.logged c.event, .paused d] := by
  rw [interpret_command hp rest w h, Command.perform_pause hd]

theorem interpret_refused {c : Command} {call : Call} {s : σ} {e : ClientError}
    (h : p.command ctx = .ok c) (hd : c.deed ctx.tags = .ask call)
    (ha : client.answer w.now call w.client = (s, .error e)) :
    interpret ctx client (p.tokens ++ rest) w =
      ⟨.error (.commandFailed p.typed (.client e)), [.called call], ⟨s, w.now⟩⟩ := by
  rw [interpret_command hp rest w h, Command.perform_ask hd]
  simp only [ask, ha]

theorem interpret_accepted {c : Command} {call : Call} {s : σ} (h : p.command ctx = .ok c)
    (hd : c.deed ctx.tags = .ask call) (ha : client.answer w.now call w.client = (s, .ok ())) :
    interpret ctx client (p.tokens ++ rest) w =
      (interpret ctx client rest ⟨s, w.now⟩).afterOne [.called call, .logged c.event] := by
  rw [interpret_command hp rest w h, Command.perform_ask hd]
  simp only [ask, ha]

end

end MetricStream
