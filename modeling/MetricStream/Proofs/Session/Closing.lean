/-
The close at the end of a session, with any client.

A session makes the calls of its run and then one more, the close, whatever
came of the run. It succeeds if both do; the run's error is its error however
the close goes, and the error of the close is only where the run had none.
Where both fail, the close's failure is not lost: it is the one warning of a
session (`execute_closes_once`).
-/
import MetricStream.Client.Recorder
import MetricStream.Proofs.Interpreter.Halting
import MetricStream.Proofs.Interpreter.Writes
import MetricStream.Session

namespace MetricStream

/-! ## What a run leaves to the close -/

section

variable {σ : Type} (ctx : Context) (client : Client σ) (tokens : List String) (w : World σ)

theorem interpret_accounts :
    Accounts client w (interpret ctx client tokens w).trace (interpret ctx client tokens w).world := by
  rw [interpret_eq_follow (cut_spec tokens)]
  exact follow_accounts ctx client _ _ w

theorem interpret_halts :
    Halts client w.client
      ((carriedOut ctx client (cut tokens).1 w).filterMap (Command.call? ctx.tags))
      (turnsOf w.now (interpret ctx client tokens w).trace) (interpret ctx client tokens w).result := by
  rw [interpret_eq_follow (cut_spec tokens)]
  exact follow_halts ctx client _ _ w

theorem safe_of_interpret : ∀ t ∈ turnsOf w.now (interpret ctx client tokens w).trace,
    t.call ≠ .close ∧ ∀ wr, t.write? = some wr → wr.value.isFinite = true := by
  intro t ht
  have hcall : t.call ∈ (interpret ctx client tokens w).calls := by
    rw [Outcome.calls, ← calls_turnsOf w.now]
    exact List.mem_map_of_mem ht
  rw [interpret_eq_follow (cut_spec tokens), calls_follow, List.mem_filterMap] at hcall
  obtain ⟨p, -, hp⟩ := hcall
  exact ⟨(Phrase.call?_safe hp).1, (Phrase.call?_safe hp).2 t.now⟩

theorem close_notMem_calls : .close ∉ (interpret ctx client tokens w).calls := by
  intro h
  rw [Outcome.calls, ← calls_turnsOf w.now, List.mem_map] at h
  obtain ⟨t, ht, hclose⟩ := h
  exact (safe_of_interpret ctx client tokens w t ht).1 hclose

theorem interpret_events :
    (interpret ctx client tokens w).events =
      (carriedOut ctx client (cut tokens).1 w).map Command.event := by
  rw [interpret_eq_follow (cut_spec tokens), events_follow]

theorem level_of_interpret {event : Log.Event} (h : event ∈ (interpret ctx client tokens w).events) :
    event.level = .info := by
  rw [interpret_events, List.mem_map] at h
  obtain ⟨c, -, rfl⟩ := h
  cases c <;> rfl

/-! ## The close -/

theorem execute_world :
    (execute ctx client tokens w).world =
      ⟨(client.answer (interpret ctx client tokens w).world.now .close
        (interpret ctx client tokens w).world.client).1, (interpret ctx client tokens w).world.now⟩ := by
  unfold execute
  simp only
  split <;> rfl

theorem execute_eq_ok {n : Nat} :
    (execute ctx client tokens w).result = .ok n ↔
      (interpret ctx client tokens w).result = .ok n ∧
      (client.answer (interpret ctx client tokens w).world.now .close
        (interpret ctx client tokens w).world.client).2 = .ok () := by
  unfold execute
  simp only
  split <;> simp_all

theorem execute_eq_run {e : RunError} :
    (execute ctx client tokens w).result = .error (.run e) ↔
      (interpret ctx client tokens w).result = .error e := by
  unfold execute
  simp only
  split <;> simp_all

theorem execute_eq_close {e : ClientError} :
    (execute ctx client tokens w).result = .error (.close e) ↔
      (∃ n, (interpret ctx client tokens w).result = .ok n) ∧
      (client.answer (interpret ctx client tokens w).world.now .close
        (interpret ctx client tokens w).world.client).2 = .error e := by
  unfold execute
  simp only
  split <;> simp_all

/-- The warning that a close gives which fails after a run that failed. -/
def closeWarning (run : Except RunError Nat) (close : Except ClientError Unit) : List Log.Event :=
  match run, close with
  | .error _, .error e => [.closeFailed e]
  | _, _ => []

theorem execute_trace :
    (execute ctx client tokens w).trace =
      (interpret ctx client tokens w).trace ++ .called .close ::
        (closeWarning (interpret ctx client tokens w).result
          (client.answer (interpret ctx client tokens w).world.now .close
            (interpret ctx client tokens w).world.client).2).map .logged := by
  unfold execute closeWarning
  simp only
  split <;> simp_all

theorem turnsOf_execute :
    turnsOf w.now (execute ctx client tokens w).trace =
      turnsOf w.now (interpret ctx client tokens w).trace ++
        [⟨(interpret ctx client tokens w).world.now, .close⟩] := by
  have hnow := (interpret_accounts ctx client tokens w).now_eq
  rw [execute_trace, turnsOf_append, ← hnow]
  unfold closeWarning
  split <;> rfl

theorem execute_client :
    (execute ctx client tokens w).world.client =
      client.after (turnsOf w.now (execute ctx client tokens w).trace) w.client := by
  have hclient := (interpret_accounts ctx client tokens w).client_eq
  rw [turnsOf_execute, client.after_append, ← hclient, execute_world]
  rfl

theorem execute_now :
    (execute ctx client tokens w).world.now =
      timeAfter w.now (execute ctx client tokens w).trace := by
  have hnow := (interpret_accounts ctx client tokens w).now_eq
  rw [execute_world, execute_trace, timeAfter_append, ← hnow]
  unfold closeWarning
  split <;> rfl

theorem execute_events :
    (execute ctx client tokens w).events =
      (interpret ctx client tokens w).events ++
        closeWarning (interpret ctx client tokens w).result
          (client.answer (interpret ctx client tokens w).world.now .close
            (interpret ctx client tokens w).world.client).2 := by
  rw [Outcome.events, execute_trace, List.filterMap_append]
  unfold closeWarning
  split <;> rfl

theorem execute_events_at (level : Log.Level) :
    (execute ctx client tokens w).events.filter (·.level = level) =
      (if level = .info then (interpret ctx client tokens w).events else []) ++
        (if level = .warn then
          closeWarning (interpret ctx client tokens w).result
            (client.answer (interpret ctx client tokens w).world.now .close
              (interpret ctx client tokens w).world.client).2
        else []) := by
  have hinfo : ∀ event ∈ (interpret ctx client tokens w).events, event.level = .info :=
    fun _ => level_of_interpret ctx client tokens w
  rw [execute_events, List.filter_append]
  congr 1
  · split
    · next h => exact List.filter_eq_self.2 fun event he => by simp [hinfo event he, h]
    · next h => exact List.filter_eq_nil_iff.2 fun event he => by simp [hinfo event he, Ne.symm h]
  · unfold closeWarning
    split
    · simp [List.filter_singleton, Log.Event.level, eq_comm]
    · simp

end

/-- **Every session closes its client, once and last.** Its calls are those of
its run, each at the same time, and then the close, which no run makes. The
client answers the close from where the run's calls leave it. The session
succeeds exactly if the run and the close do; it fails with the run's error
exactly if the run fails with it, and with the close's exactly if only the close
fails. It reports what its run reports, and warns of the close exactly if both
fail. -/
theorem execute_closes_once {σ : Type} (ctx : Context) (client : Client σ) (tokens : List String)
    (w : World σ) :
    let run := interpret ctx client tokens w
    let o := execute ctx client tokens w
    let close := client.answer run.world.now .close (client.after (turnsOf w.now run.trace) w.client)
    turnsOf w.now o.trace = turnsOf w.now run.trace ++ [⟨run.world.now, .close⟩] ∧
    o.calls = run.calls ++ [.close] ∧ .close ∉ run.calls ∧
    o.world = ⟨close.1, run.world.now⟩ ∧
    (∀ n, o.result = .ok n ↔ run.result = .ok n ∧ close.2 = .ok ()) ∧
    (∀ e, o.result = .error (.run e) ↔ run.result = .error e) ∧
    (∀ e, (SessionError.run e).chain = e.chain) ∧
    (∀ e, o.result = .error (.close e) ↔ (∃ n, run.result = .ok n) ∧ close.2 = .error e) ∧
    (∀ e, (SessionError.close e).chain = ["unable to close metrics client", e.message]) ∧
    o.events.filter (·.level = .info) = run.events ∧
    (∀ e, o.events.filter (·.level = .warn) = [.closeFailed e] ↔
      (∃ cause, run.result = .error cause) ∧ close.2 = .error e) ∧
    (o.events.filter (·.level = .warn) = [] ↔
      (∃ n, run.result = .ok n) ∨ close.2 = .ok ()) ∧
    (∀ e, (Log.Event.closeFailed e).fields = [("error", .text e.message)]) := by
  intro run o close
  have hclient : run.world.client = client.after (turnsOf w.now run.trace) w.client :=
    (interpret_accounts ctx client tokens w).client_eq
  have hclose : close = client.answer run.world.now .close run.world.client := by rw [hclient]
  have hturns := turnsOf_execute ctx client tokens w
  have hevents (level : Log.Level) : o.events.filter (·.level = level) =
      (if level = .info then run.events else []) ++
        (if level = .warn then closeWarning run.result close.2 else []) := by
    rw [hclose]
    exact execute_events_at ctx client tokens w level
  refine ⟨hturns, ?_, close_notMem_calls ctx client tokens w, ?_, ?_, ?_, fun _ => rfl, ?_,
    fun _ => rfl, ?_, ?_, ?_, fun _ => rfl⟩
  · rw [Outcome.calls, ← calls_turnsOf w.now, hturns, List.map_append, calls_turnsOf]
    rfl
  · rw [hclose]
    exact execute_world ctx client tokens w
  · intro n
    rw [hclose]
    exact execute_eq_ok ctx client tokens w
  · intro e
    exact execute_eq_run ctx client tokens w
  · intro e
    rw [hclose]
    exact execute_eq_close ctx client tokens w
  · simp [hevents]
  · intro e
    rw [hevents]
    rcases run.result with cause | n <;> rcases close.2 with e' | ⟨⟨⟩⟩ <;> simp [closeWarning]
  · rw [hevents]
    rcases run.result with cause | n <;> rcases close.2 with e' | ⟨⟨⟩⟩ <;> simp [closeWarning]

/-- A flush fails, and so does the close after it. -/
example :
    let o := execute .bare (Recorder.client (.byKind true true)) ["incr", "hits", "flush"]
      ⟨Recorder.start, .ofSeconds 10⟩
    o.result = .error (.run (.commandFailed "flush" (.client (.status 503 "unavailable")))) ∧
    o.calls = [.increment "hits" [], .flush, .close] ∧
    o.events = [.incr "hits", .closeFailed .closed] := by decide +kernel

end MetricStream
