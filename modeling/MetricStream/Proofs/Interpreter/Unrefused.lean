/-
Runs in which the client refuses nothing.

What such a run comes to depends on its tokens alone: it carries out the
commands up to the first that cannot be read (`legible`), and its result is the
one that the tokens give it (`verdict`). Nothing of the client is left in the
trace but that it was called, so all clients that refuse nothing have the same
trace and the same result (`follow_unrefused`).
-/
import MetricStream.Proofs.Interpreter.Halting

namespace MetricStream

/-- The commands that phrases spell, up to the first that cannot be read. -/
def legible (ctx : Context) : List Phrase → List Command
  | [] => []
  | p :: phrases =>
    match p.command ctx with
    | .error _ => []
    | .ok c => c :: legible ctx phrases

/-- The result of a run in which nothing is refused. -/
def verdict (ctx : Context) (rest : List String) : List Phrase → Except RunError Nat
  | [] => ending rest
  | p :: phrases =>
    match p.command ctx with
    | .error e => .error (.commandFailed p.typed (.operand e))
    | .ok _ => (verdict ctx rest phrases).map (· + 1)

/-- What happens where a command is carried out. -/
def Command.occurrences (tags : List String) (c : Command) : List Occurrence :=
  match c.deed tags with
  | .ask call => [.called call, .logged c.event]
  | .pause d => [.logged c.event, .paused d]

/-- What happens where commands are carried out one after the other. -/
def traceOf (tags : List String) (commands : List Command) : List Occurrence :=
  commands.flatMap (Command.occurrences tags)

theorem Command.occurrences_ask {tags : List String} {c : Command} {call : Call}
    (h : c.deed tags = .ask call) : c.occurrences tags = [.called call, .logged c.event] := by
  simp only [occurrences, h]

theorem Command.occurrences_pause {tags : List String} {c : Command} {d : Duration}
    (h : c.deed tags = .pause d) : c.occurrences tags = [.logged c.event, .paused d] := by
  simp only [occurrences, h]

theorem traceOf_cons (tags : List String) (c : Command) (commands : List Command) :
    traceOf tags (c :: commands) = c.occurrences tags ++ traceOf tags commands :=
  List.flatMap_cons

section

variable {ctx : Context} {p : Phrase} (phrases : List Phrase)

theorem legible_malformed {e : OperandError} (h : p.command ctx = .error e) :
    legible ctx (p :: phrases) = [] := by
  simp only [legible, h]

theorem legible_command {c : Command} (h : p.command ctx = .ok c) :
    legible ctx (p :: phrases) = c :: legible ctx phrases := by
  simp only [legible, h]

theorem verdict_malformed {e : OperandError} (h : p.command ctx = .error e) (rest : List String) :
    verdict ctx rest (p :: phrases) = .error (.commandFailed p.typed (.operand e)) := by
  simp only [verdict, h]

theorem verdict_command {c : Command} (h : p.command ctx = .ok c) (rest : List String) :
    verdict ctx rest (p :: phrases) = (verdict ctx rest phrases).map (· + 1) := by
  simp only [verdict, h]

end

/-! ## The trace of commands carried out -/

theorem events_traceOf (tags : List String) (commands : List Command) :
    (traceOf tags commands).filterMap Occurrence.event? = commands.map Command.event := by
  induction commands with
  | nil => rfl
  | cons c commands ih =>
    rw [traceOf_cons, List.filterMap_append, ih]
    rcases hd : c.deed tags with call | d
    · rw [Command.occurrences_ask hd]
      rfl
    · rw [Command.occurrences_pause hd]
      rfl

theorem calls_traceOf (tags : List String) (commands : List Command) :
    (traceOf tags commands).filterMap Occurrence.call? = commands.filterMap (Command.call? tags) := by
  induction commands with
  | nil => rfl
  | cons c commands ih =>
    rw [traceOf_cons, List.filterMap_append, ih]
    rcases hd : c.deed tags with call | d
    · rw [Command.occurrences_ask hd, List.filterMap_cons_some (Command.call?_ask hd)]
      rfl
    · rw [Command.occurrences_pause hd, List.filterMap_cons_none (Command.call?_pause hd)]
      rfl

/-! ## Runs -/

section

variable {σ : Type} {ctx : Context} {client : Client σ}

/-- **A run in which nothing is refused** is what its tokens make it. -/
theorem follow_unrefused {rest : List String} {phrases : List Phrase} {w : World σ}
    (h : ∀ x ∈ client.exchanges (turnsOf w.now (follow ctx client rest phrases w).trace) w.client,
      x.answer = .ok ()) :
    (follow ctx client rest phrases w).result = verdict ctx rest phrases ∧
      (follow ctx client rest phrases w).trace = traceOf ctx.tags (legible ctx phrases) := by
  induction phrases generalizing w with
  | nil => exact ⟨rfl, rfl⟩
  | cons p phrases ih =>
    rcases p.fate ctx client w with ⟨e, hc⟩ | ⟨c, d, hc, hd⟩ | ⟨c, call, s, e | ⟨⟨⟩⟩, hc, hd, ha⟩
    · rw [follow_malformed phrases hc, verdict_malformed phrases hc, legible_malformed phrases hc]
      exact ⟨rfl, rfl⟩
    · rw [follow_pause phrases hc hd] at h ⊢
      obtain ⟨hresult, htrace⟩ := ih (w := ⟨w.client, w.now.after d⟩) h
      rw [verdict_command phrases hc, legible_command phrases hc, traceOf_cons,
        Command.occurrences_pause hd, ← hresult, ← htrace]
      exact ⟨rfl, rfl⟩
    · rw [follow_refused phrases hc hd ha] at h
      have hfirst := h ⟨⟨w.now, call⟩, .error e⟩ (by simp [turnsOf, Client.exchanges, ha])
      cases hfirst
    · rw [follow_accepted phrases hc hd ha] at h ⊢
      obtain ⟨hresult, htrace⟩ := ih (w := ⟨s, w.now⟩) fun x hx =>
        h x (by simpa [Outcome.afterOne, turnsOf, Client.exchanges, ha] using .inr hx)
      rw [verdict_command phrases hc, legible_command phrases hc, traceOf_cons,
        Command.occurrences_ask hd, ← hresult, ← htrace]
      exact ⟨rfl, rfl⟩

theorem interpret_unrefused {tokens : List String} {w : World σ}
    (h : ∀ x ∈ client.exchanges (turnsOf w.now (interpret ctx client tokens w).trace) w.client,
      x.answer = .ok ()) :
    (interpret ctx client tokens w).result = verdict ctx (cut tokens).2 (cut tokens).1 ∧
      (interpret ctx client tokens w).trace = traceOf ctx.tags (legible ctx (cut tokens).1) := by
  rw [interpret_eq_follow (cut_spec tokens)] at h ⊢
  exact follow_unrefused h

end

end MetricStream
