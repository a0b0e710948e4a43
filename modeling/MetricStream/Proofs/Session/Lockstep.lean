/-
Sessions of clients that cannot be told apart.

Two clients are in lockstep if from related states they answer a call alike, and
are left in related states again. Then they answer alike whatever they are asked
(`Lockstep.exchanges`). All that a run learns of its client are the answers, so a
run or a session of the one is that of the other, up to the state in which it
leaves the client (`Lockstep.alike_interpret`,
`Lockstep.alike_execute`).
-/
import MetricStream.Proofs.Session.Closing

namespace MetricStream

/-- No call can tell the two clients apart from states that are related. -/
structure Lockstep {σ τ : Type} (client : Client σ) (client' : Client τ) (R : σ → τ → Prop) :
    Prop where
  answers : ∀ {s t}, R s t → ∀ now call,
    (client.answer now call s).2 = (client'.answer now call t).2
  states : ∀ {s t}, R s t → ∀ now call,
    R (client.answer now call s).1 (client'.answer now call t).1

/-- The outcomes are the same but for the client's state, and there they are
related. -/
structure Outcome.Alike {σ τ ε α : Type} (R : σ → τ → Prop) (o : Outcome σ ε α)
    (o' : Outcome τ ε α) : Prop where
  result : o.result = o'.result
  trace : o.trace = o'.trace
  client : R o.world.client o'.world.client
  now : o.world.now = o'.world.now

section

variable {σ τ : Type} {R : σ → τ → Prop}

theorem Outcome.Alike.afterOne {o : Outcome σ RunError Nat} {o' : Outcome τ RunError Nat}
    (h : o.Alike R o') (trace : List Occurrence) : (o.afterOne trace).Alike R (o'.afterOne trace) :=
  ⟨congrArg (Except.map (· + 1)) h.result, congrArg (trace ++ ·) h.trace, h.client, h.now⟩

theorem Outcome.Alike.events {ε α : Type} {o : Outcome σ ε α} {o' : Outcome τ ε α}
    (h : o.Alike R o') : o.events = o'.events :=
  congrArg (List.filterMap Occurrence.event?) h.trace

end

namespace Lockstep

variable {σ τ : Type} {client : Client σ} {client' : Client τ} {R : σ → τ → Prop}
  (h : Lockstep client client' R) {s : σ} {t : τ} (hR : R s t)
include h hR

theorem exchanges (turns : List Turn) : client.exchanges turns s = client'.exchanges turns t := by
  induction turns generalizing s t with
  | nil => rfl
  | cons turn turns ih =>
    rw [Client.exchanges, Client.exchanges, h.answers hR, ih (h.states hR turn.now turn.call)]

theorem after (turns : List Turn) : R (client.after turns s) (client'.after turns t) := by
  induction turns generalizing s t with
  | nil => exact hR
  | cons turn turns ih => exact ih (h.states hR turn.now turn.call)

theorem alike_follow (ctx : Context) (rest : List String) (phrases : List Phrase) (now : Instant) :
    (follow ctx client rest phrases ⟨s, now⟩).Alike R
      (follow ctx client' rest phrases ⟨t, now⟩) := by
  induction phrases generalizing s t now with
  | nil => exact ⟨rfl, rfl, hR, rfl⟩
  | cons p phrases ih =>
    rcases p.fate ctx client ⟨s, now⟩ with
      ⟨e, hc⟩ | ⟨c, d, hc, hd⟩ | ⟨c, call, s', answer, hc, hd, ha⟩
    · rw [follow_malformed phrases hc, follow_malformed phrases hc]
      exact ⟨rfl, rfl, hR, rfl⟩
    · rw [follow_pause phrases hc hd, follow_pause phrases hc hd]
      exact (ih hR (now.after d)).afterOne _
    -- The other client gives the same answer, so its run takes the same turn.
    have ha' : client'.answer now call t = ((client'.answer now call t).1, answer) :=
      Prod.ext rfl ((h.answers hR now call).symm.trans (congrArg Prod.snd ha))
    have hR' : R s' (client'.answer now call t).1 := by
      have hstates := h.states hR now call
      rwa [show client.answer now call s = _ from ha] at hstates
    rcases answer with e | ⟨⟨⟩⟩
    · rw [follow_refused phrases hc hd ha, follow_refused phrases hc hd ha']
      exact ⟨rfl, rfl, hR', rfl⟩
    · rw [follow_accepted phrases hc hd ha, follow_accepted phrases hc hd ha']
      exact (ih hR' now).afterOne _

theorem alike_interpret (ctx : Context) (tokens : List String) (now : Instant) :
    (interpret ctx client tokens ⟨s, now⟩).Alike R
      (interpret ctx client' tokens ⟨t, now⟩) := by
  rw [interpret_eq_follow (cut_spec tokens), interpret_eq_follow (cut_spec tokens)]
  exact h.alike_follow hR ctx _ _ now

/-- **Sessions of clients in lockstep** are alike. -/
theorem alike_execute (ctx : Context) (tokens : List String) (now : Instant) :
    (execute ctx client tokens ⟨s, now⟩).Alike R
      (execute ctx client' tokens ⟨t, now⟩) := by
  have hrun := h.alike_interpret hR ctx tokens now
  have hclose := h.answers hrun.client (interpret ctx client tokens ⟨s, now⟩).world.now .close
  have hclosed := h.states hrun.client (interpret ctx client tokens ⟨s, now⟩).world.now .close
  rw [hrun.now] at hclose hclosed
  constructor
  · rcases hr : (interpret ctx client' tokens ⟨t, now⟩).result with e | n
    · rw [(execute_eq_run ctx client tokens _).2 (hrun.result.trans hr),
        (execute_eq_run ctx client' tokens _).2 hr]
    rcases hc : (client'.answer (interpret ctx client' tokens ⟨t, now⟩).world.now .close
      (interpret ctx client' tokens ⟨t, now⟩).world.client).2 with e | ⟨⟨⟩⟩
    · rw [(execute_eq_close ctx client' tokens _).2 ⟨⟨n, hr⟩, hc⟩]
      refine (execute_eq_close ctx client tokens _).2 ⟨⟨n, hrun.result.trans hr⟩, ?_⟩
      rw [hrun.now, hclose, hc]
    · rw [(execute_eq_ok ctx client' tokens _).2 ⟨hr, hc⟩]
      refine (execute_eq_ok ctx client tokens _).2 ⟨hrun.result.trans hr, ?_⟩
      rw [hrun.now, hclose, hc]
  · rw [execute_trace, execute_trace, hrun.trace, hrun.result, hrun.now, hclose]
  · rw [execute_world, execute_world, hrun.now]
    exact hclosed
  · rw [execute_world, execute_world]
    exact hrun.now

end Lockstep

end MetricStream
