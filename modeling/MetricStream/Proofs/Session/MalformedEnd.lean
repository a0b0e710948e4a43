/-
Two sessions that differ in a malformed end.

One session's tokens are interpreted with success; the other's are the same
with more behind them, of which the first command is malformed. The two sessions
do the same until the first of them is closed, and the close finds the same
client, so it delivers the same. Only what they come to differs
(`malformed_end_costs_nothing`).
-/
import MetricStream.Client.Series
import MetricStream.Proofs.Interpreter.Malformed
import MetricStream.Proofs.Session.Closing

namespace MetricStream

/-! ## What is only logged -/

theorem nanos_of_logged (events : List Log.Event) :
    (events.map Occurrence.logged).foldr (fun occurrence total => occurrence.nanos + total) 0 = 0 := by
  induction events with
  | nil => rfl
  | cons event events ih => exact (Nat.zero_add _).trans ih

section

variable {σ ε ε' α α' : Type} {o : Outcome σ ε α} {o' : Outcome σ ε' α'} {events : List Log.Event}
  (h : o'.trace = o.trace ++ events.map .logged)
include h

theorem calls_of_logged : o'.calls = o.calls := by
  have hnone : (events.map Occurrence.logged).filterMap Occurrence.call? = [] := by
    simp [Occurrence.call?]
  rw [Outcome.calls, h, List.filterMap_append, hnone, List.append_nil]
  rfl

theorem events_of_logged : o'.events = o.events ++ events := by
  have hall : (events.map Occurrence.logged).filterMap Occurrence.event? = events := by
    rw [List.filterMap_map]
    exact List.filterMap_some
  rw [Outcome.events, h, List.filterMap_append, hall]
  rfl

theorem elapsed_of_logged : o'.elapsed = o.elapsed := by
  rw [Outcome.elapsed, h, List.foldr_append, nanos_of_logged]
  rfl

end

/-! ## The two sessions -/

section

variable {σ : Type} {ctx : Context} {client : Client σ} {xs ys : List String} {w : World σ} {n : Nat}
  {e : RunError} (hxs : (interpret ctx client xs w).result = .ok n) (hys : Malformed ys e)
include hxs hys

theorem interpret_malformed_end :
    interpret ctx client (xs ++ ys) w =
      ⟨.error e, (interpret ctx client xs w).trace, (interpret ctx client xs w).world⟩ := by
  rw [interpret_append hxs, Outcome.andThen_ok hxs, interpret_of_malformed hys, List.append_nil]
  rfl

theorem world_of_malformed_end :
    (execute ctx client (xs ++ ys) w).world = (execute ctx client xs w).world := by
  rw [execute_world, execute_world, interpret_malformed_end hxs hys]

theorem result_of_malformed_end : (execute ctx client (xs ++ ys) w).result = .error (.run e) := by
  rw [execute_eq_run, interpret_malformed_end hxs hys]

/-- The malformed end adds nothing but the warning of a close that fails. -/
theorem trace_of_malformed_end :
    (execute ctx client (xs ++ ys) w).trace = (execute ctx client xs w).trace ++
      (closeWarning (.error e) (client.answer (interpret ctx client xs w).world.now .close
        (interpret ctx client xs w).world.client).2).map .logged := by
  rw [execute_trace, execute_trace, interpret_malformed_end hxs hys, hxs]
  simp [closeWarning]

end

open SeriesClient (client)

/-- **A malformed command costs nothing that came before it.** A session whose
tokens are interpreted with success, and one with more tokens behind them that
begin with a malformed command, leave the same client with the same requests
received, make the same calls and take the same time. The second fails with what
is wrong with this command, whether or not the close succeeds; a close that fails
the first session is a warning in the second. -/
theorem malformed_end_costs_nothing {ctx : Context} {xs ys : List String} {w : World SeriesClient}
    {n : Nat} {e : RunError} (hxs : (interpret ctx client xs w).result = .ok n)
    (hys : Malformed ys e) :
    let o := execute ctx client xs w
    let o' := execute ctx client (xs ++ ys) w
    o'.world.client.backend.received = o.world.client.backend.received ∧ o'.world = o.world ∧
    o'.calls = o.calls ∧ o'.elapsed = o.elapsed ∧
    (o.result = .ok n ∨ ∃ cause, o.result = .error (.close cause)) ∧
    o'.result = .error (.run e) ∧
    ∀ cause, o'.events = o.events ++ [.closeFailed cause] ↔ o.result = .error (.close cause) := by
  intro o o'
  have hworld : o'.world = o.world := world_of_malformed_end hxs hys
  have htrace := trace_of_malformed_end hxs hys
  have hok := execute_eq_ok ctx client xs w (n := n)
  have hclose (cause : ClientError) := execute_eq_close ctx client xs w (e := cause)
  have hevents : o'.events = o.events ++ _ := events_of_logged htrace
  refine ⟨congrArg (·.client.backend.received) hworld, hworld, calls_of_logged htrace,
    elapsed_of_logged htrace, ?_, result_of_malformed_end hxs hys, fun cause => ?_⟩
  · rcases ha : (client.answer (interpret ctx client xs w).world.now .close
      (interpret ctx client xs w).world.client).2 with cause | ⟨⟨⟩⟩
    · exact .inr ⟨cause, (hclose cause).2 ⟨⟨n, hxs⟩, ha⟩⟩
    · exact .inl (hok.2 ⟨hxs, ha⟩)
  · rw [hevents, List.append_cancel_left_eq, hclose, hxs]
    rcases (client.answer (interpret ctx client xs w).world.now .close
      (interpret ctx client xs w).world.client).2 with cause | ⟨⟨⟩⟩ <;> simp [closeWarning]

/-- The backend refuses the close's submission in both sessions, and the second
ends with a value that is no finite number. -/
theorem malformed_end_costs_nothing_refused_close :
    let backend : Delivery.Backend := .plain "127.0.0.1" 47125 fun _ => .answered 503 []
    let w : World SeriesClient :=
      ⟨⟨"web-01", ⟨"secret"⟩, "http://127.0.0.1:47125/api/v1/series", [], false, backend⟩,
        .ofSeconds 10⟩
    let xs := ["incr", "hits", "sleep", "1500ms", "gauge", "load", "2"]
    let ys := ["gauge", "load", "NaN", "flush"]
    let o := execute .bare client xs w
    let o' := execute .bare client (xs ++ ys) w
    (interpret .bare client xs w).result = .ok 3 ∧
    Malformed ys (.commandFailed "gauge" (.operand (.nonFinite "NaN"))) ∧
    o.result = .error (.close (.status 503 "")) ∧
    o'.result = .error (.run (.commandFailed "gauge" (.operand (.nonFinite "NaN")))) ∧
    o'.world.client.backend.received = o.world.client.backend.received ∧
    o'.elapsed = o.elapsed ∧ o'.events = o.events ++ [.closeFailed (.status 503 "")] := by
  intro backend w xs ys o o'
  have hxs : (interpret .bare client xs w).result = .ok 3 := by decide +kernel
  have hys : Malformed ys (.commandFailed "gauge" (.operand (.nonFinite "NaN"))) :=
    .value rfl (.inl rfl) (by decide +kernel)
  have ho : o.result = .error (.close (.status 503 "")) := by decide +kernel
  obtain ⟨hreceived, -, -, helapsed, -, hresult, hevents⟩ := malformed_end_costs_nothing hxs hys
  exact ⟨hxs, hys, ho, hresult, hreceived, helapsed, (hevents _).2 ho⟩

end MetricStream
