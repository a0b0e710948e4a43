/-
What a run does, said of its token list cut into commands.

`follow` is the reference: it is given the commands already cut out, and
carries one out after the other. `interpret` finds its commands on the way,
each where the one before it ended, and comes to the same
(`interpret_eq_follow`); the client decides how far a run gets and never which
tokens are verbs.
-/
import MetricStream.Proofs.Interpreter.Steps

namespace MetricStream

/-- Carries out commands from the left. A command that cannot be read ends the
run before anything is asked of the client, a call that the client refuses ends
it with that call, and the commands run out before `rest`. -/
def follow {σ : Type} (ctx : Context) (client : Client σ) (rest : List String) :
    List Phrase → World σ → Outcome σ RunError Nat
  | [], w => ⟨ending rest, [], w⟩
  | p :: phrases, w =>
    match p.command ctx with
    | .error e => ⟨.error (.commandFailed p.typed (.operand e)), [], w⟩
    | .ok c =>
      match c.deed ctx.tags with
      | .pause d =>
        (follow ctx client rest phrases ⟨w.client, w.now.after d⟩).afterOne
          [.logged c.event, .paused d]
      | .ask call =>
        match client.answer w.now call w.client with
        | (s, .error e) => ⟨.error (.commandFailed p.typed (.client e)), [.called call], ⟨s, w.now⟩⟩
        | (s, .ok ()) =>
          (follow ctx client rest phrases ⟨s, w.now⟩).afterOne [.called call, .logged c.event]

/-- The one call that a phrase stands for. A pause is none, and neither is what
cannot be read. -/
def Phrase.call? (ctx : Context) (p : Phrase) : Option Call :=
  match p.command ctx with
  | .error _ => none
  | .ok c =>
    match c.deed ctx.tags with
    | .pause _ => none
    | .ask call => some call

theorem Phrase.call?_error {ctx : Context} {p : Phrase} {e : OperandError}
    (h : p.command ctx = .error e) : p.call? ctx = none := by
  simp only [call?, h]

theorem Phrase.call?_pause {ctx : Context} {p : Phrase} {c : Command} {d : Duration}
    (h : p.command ctx = .ok c) (hd : c.deed ctx.tags = .pause d) : p.call? ctx = none := by
  simp only [call?, h, hd]

theorem Phrase.call?_ask {ctx : Context} {p : Phrase} {c : Command} {call : Call}
    (h : p.command ctx = .ok c) (hd : c.deed ctx.tags = .ask call) : p.call? ctx = some call := by
  simp only [call?, h, hd]

theorem Phrase.call?_eq_some {ctx : Context} {p : Phrase} {call : Call} :
    p.call? ctx = some call ↔ ∃ c, p.command ctx = .ok c ∧ c.deed ctx.tags = .ask call := by
  rcases hc : p.command ctx with e | c
  · simp [call?_error hc]
  rcases hd : c.deed ctx.tags with call' | d
  · simp [call?_ask hc hd, hd]
  · simp [call?_pause hc hd, hd]

theorem Outcome.calls_afterOne {σ : Type} (trace : List Occurrence) (o : Outcome σ RunError Nat) :
    (o.afterOne trace).calls = trace.filterMap Occurrence.call? ++ o.calls := by
  simp [Outcome.calls, Outcome.afterOne]

theorem Outcome.events_afterOne {σ : Type} (trace : List Occurrence) (o : Outcome σ RunError Nat) :
    (o.afterOne trace).events = trace.filterMap Occurrence.event? ++ o.events := by
  simp [Outcome.events, Outcome.afterOne]

section

variable {σ : Type} {ctx : Context} {client : Client σ}

/-- What can become of one command: its operands cannot be read, it pauses, its
call is refused, or its call is accepted. -/
theorem Phrase.fate (ctx : Context) (client : Client σ) (p : Phrase) (w : World σ) :
    (∃ e, p.command ctx = .error e) ∨
      (∃ c d, p.command ctx = .ok c ∧ c.deed ctx.tags = .pause d) ∨
      ∃ c call s answer, p.command ctx = .ok c ∧ c.deed ctx.tags = .ask call ∧
        client.answer w.now call w.client = (s, answer) := by
  rcases hc : p.command ctx with e | c
  · exact .inl ⟨e, rfl⟩
  rcases hd : c.deed ctx.tags with call | d
  · exact .inr (.inr ⟨c, call, _, _, rfl, hd, rfl⟩)
  · exact .inr (.inl ⟨c, d, rfl, hd⟩)

/-! ## The equations of the reference -/

section

variable {rest : List String} {p : Phrase} (phrases : List Phrase) {w : World σ}

theorem follow_malformed {e : OperandError} (h : p.command ctx = .error e) :
    follow ctx client rest (p :: phrases) w =
      ⟨.error (.commandFailed p.typed (.operand e)), [], w⟩ := by
  simp only [follow, h]

theorem follow_pause {c : Command} {d : Duration} (h : p.command ctx = .ok c)
    (hd : c.deed ctx.tags = .pause d) :
    follow ctx client rest (p :: phrases) w =
      (follow ctx client rest phrases ⟨w.client, w.now.after d⟩).afterOne
        [.logged c.event, .paused d] := by
  simp only [follow, h, hd]

theorem follow_refused {c : Command} {call : Call} {s : σ} {e : ClientError}
    (h : p.command ctx = .ok c) (hd : c.deed ctx.tags = .ask call)
    (ha : client.answer w.now call w.client = (s, .error e)) :
    follow ctx client rest (p :: phrases) w =
      ⟨.error (.commandFailed p.typed (.client e)), [.called call], ⟨s, w.now⟩⟩ := by
  simp only [follow, h, hd, ha]

theorem follow_accepted {c : Command} {call : Call} {s : σ} (h : p.command ctx = .ok c)
    (hd : c.deed ctx.tags = .ask call) (ha : client.answer w.now call w.client = (s, .ok ())) :
    follow ctx client rest (p :: phrases) w =
      (follow ctx client rest phrases ⟨s, w.now⟩).afterOne [.called call, .logged c.event] := by
  simp only [follow, h, hd, ha]

end

/-! ## Runs by their cut -/

theorem interpret_eq_follow {tokens rest : List String} {phrases : List Phrase}
    (h : Cut tokens phrases rest) (w : World σ) :
    interpret ctx client tokens w = follow ctx client rest phrases w := by
  -- The induction is on the commands: what a run does first is decided by the first of them.
  induction phrases generalizing tokens w with
  | nil =>
    obtain rfl : tokens = rest := by simpa using h.tokens_eq
    exact interpret_stuck h.stuck w
  | cons p phrases ih =>
    obtain ⟨hp, tokens', rfl, h'⟩ := h.tail
    rcases p.fate ctx client w with ⟨e, hc⟩ | ⟨c, d, hc, hd⟩ | ⟨c, call, s, e | ⟨⟨⟩⟩, hc, hd, ha⟩
    · rw [interpret_malformed hp tokens' w hc, follow_malformed phrases hc]
    · rw [interpret_pause hp tokens' w hc hd, follow_pause phrases hc hd, ih h']
    · rw [interpret_refused hp tokens' w hc hd ha, follow_refused phrases hc hd ha]
    · rw [interpret_accepted hp tokens' w hc hd ha, follow_accepted phrases hc hd ha, ih h']

/-- The calls of a run are those of its first commands: of each that it reports,
and of the one that ends it, if that makes one. -/
theorem calls_follow (ctx : Context) (client : Client σ) (rest : List String)
    (phrases : List Phrase) (w : World σ) :
    (follow ctx client rest phrases w).calls =
      (phrases.take ((follow ctx client rest phrases w).events.length + 1)).filterMap
        (Phrase.call? ctx) := by
  induction phrases generalizing w with
  | nil => rfl
  | cons p phrases ih =>
    rw [List.take_succ_cons]
    rcases p.fate ctx client w with ⟨e, hc⟩ | ⟨c, d, hc, hd⟩ | ⟨c, call, s, e | ⟨⟨⟩⟩, hc, hd, ha⟩
    · rw [follow_malformed phrases hc, List.filterMap_cons_none (Phrase.call?_error hc)]
      rfl
    · rw [follow_pause phrases hc hd, Outcome.calls_afterOne, Outcome.events_afterOne, ih,
        List.filterMap_cons_none (Phrase.call?_pause hc hd), List.length_append, Nat.add_comm _ (_ : ℕ)]
      rfl
    · rw [follow_refused phrases hc hd ha, List.filterMap_cons_some (Phrase.call?_ask hc hd)]
      rfl
    · rw [follow_accepted phrases hc hd ha, Outcome.calls_afterOne, Outcome.events_afterOne, ih,
        List.filterMap_cons_some (Phrase.call?_ask hc hd), List.length_append, Nat.add_comm _ (_ : ℕ)]
      rfl

/-- **A run carries out the commands of its token list, from the left.** The
list has one cut into commands and a rest that no command starts. With any
client, the run makes the calls of the commands that it reports and of the next,
if that makes one, and no others, and it comes to the result, the calls and the world of
the reference: it ends with the first command that cannot be read or that the
client refuses, and otherwise with what is left of the tokens, or with the number
of commands. -/
theorem interpret_by_commands (ctx : Context) (client : Client σ) (tokens : List String)
    (w : World σ) :
    ∃ phrases rest,
      (∀ phrases' rest', Cut tokens phrases' rest' ↔ phrases' = phrases ∧ rest' = rest) ∧
      (interpret ctx client tokens w).calls =
        (phrases.take ((interpret ctx client tokens w).events.length + 1)).filterMap
          (Phrase.call? ctx) ∧
      interpret ctx client tokens w = follow ctx client rest phrases w := by
  have hcut := cut_spec tokens
  have hrun : interpret ctx client tokens w = follow ctx client (cut tokens).2 (cut tokens).1 w :=
    interpret_eq_follow hcut w
  refine ⟨(cut tokens).1, (cut tokens).2, fun phrases' rest' => ?_, ?_, hrun⟩
  · rw [cut_iff, eq_comm, Prod.ext_iff]
  · rw [hrun]
    exact calls_follow ctx client _ _ w

end

end MetricStream
