/-
Sessions whose token lists say the same in other words.

A session closes where its run ends, so sessions of matching runs match too. Two
ways of saying the same are looked at. A verb can be spelt in full or by its
letter, and no client and no report tells which it was (`spellings_are_invisible`).
And an increment can be spelt as a count of one, a decrement as a count of minus
one, which only a client that has a way of its own to do either can tell
(`increments_are_counts`).
-/
import MetricStream.Client.Series
import MetricStream.Proofs.Interpreter.Rewording
import MetricStream.Proofs.Session.Closing

namespace MetricStream

/-! ## Sessions of matching runs -/

theorem closeWarning_of_cause {run run' : Except RunError Nat}
    (h : run'.mapError RunError.cause? = run.mapError RunError.cause?)
    (close : Except ClientError Unit) : closeWarning run' close = closeWarning run close := by
  rcases run with e | n <;> rcases run' with e' | n'
  · cases close <;> rfl
  · simp [Except.mapError] at h
  · simp [Except.mapError] at h
  · rfl

section

variable {σ : Type} {ctx : Context} {client : Client σ} {view : Occurrence → Occurrence}
  {xs ys : List String} {w : World σ}
  (h : (interpret ctx client xs w).Matches view (interpret ctx client ys w))
include h

theorem world_of_matches :
    (execute ctx client ys w).world = (execute ctx client xs w).world := by
  rw [execute_world, execute_world, h.world]

theorem trace_of_matches :
    (execute ctx client ys w).trace.map view = (execute ctx client xs w).trace.map view := by
  rw [execute_trace, execute_trace, List.map_append, List.map_append, h.trace, h.world,
    closeWarning_of_cause h.cause]

theorem ok_of_matches {n : Nat} :
    (execute ctx client ys w).result = .ok n ↔ (execute ctx client xs w).result = .ok n := by
  rw [execute_eq_ok, execute_eq_ok, h.eq_ok_iff, h.world]

theorem close_of_matches {e : ClientError} :
    (execute ctx client ys w).result = .error (.close e) ↔
      (execute ctx client xs w).result = .error (.close e) := by
  simp only [execute_eq_close, h.eq_ok_iff, h.world]

end

/-! ## Spellings -/

theorem Respelt.cut {tokens tokens' : List String} (h : Respelt tokens tokens') :
    (MetricStream.cut tokens').1.map (fun p => (p.verb, p.operands)) =
      (MetricStream.cut tokens).1.map fun p => (p.verb, p.operands) := by
  induction h with
  | nil => rfl
  | unknown h => rfl
  | short h h' hlt => rw [cut_stuck (stuck_of_short h hlt), cut_stuck (stuck_of_short h' hlt)]
  | @command token token' verb rest rest' operands h h' hlen hrest ih =>
    have hp : (⟨token, verb, operands⟩ : Phrase).Whole := ⟨h, hlen⟩
    have hq : (⟨token', verb, operands⟩ : Phrase).Whole := ⟨h', hlen⟩
    have hcut := cut_append hp rest
    have hcut' := cut_append hq rest'
    rw [Phrase.tokens, List.cons_append] at hcut hcut'
    rw [hcut, hcut', List.map_cons, List.map_cons, ih]

/-- **How a verb is spelt shows in nothing but errors.** If two token lists differ
in the spellings of verbs where commands start, and in nothing else, then their
runs make the same calls, report the same and pause for the same time, all in the
same order, and leave the same world, whoever the client is. They succeed with the
same number or fail for the same cause, and each error names the token of its own
list where the command stands that failed: there are as many commands before it as
were reported, and the calls are those of these commands and of that one. The same
holds of sessions. The commands are in the same places with the same operands,
tokens of the list as they are; and a command's metric and value are what its
operands say, a verb among them or not. -/
theorem spellings_are_invisible {tokens tokens' : List String} (h : Respelt tokens tokens') {σ : Type}
    (ctx : Context) (client : Client σ) (w : World σ) :
    let run := interpret ctx client tokens w
    let run' := interpret ctx client tokens' w
    let session := execute ctx client tokens w
    let session' := execute ctx client tokens' w
    run'.calls = run.calls ∧ run'.events = run.events ∧ run'.elapsed = run.elapsed ∧
    run'.trace = run.trace ∧ run'.world = run.world ∧
    run'.result.mapError RunError.cause? = run.result.mapError RunError.cause? ∧
    (∀ e e', run.result = .error e → run'.result = .error e' →
      (commandTokens tokens)[run.events.length]? = some e.typed ∧
      (commandTokens tokens')[run.events.length]? = some e'.typed) ∧
    session'.trace = session.trace ∧ session'.world = session.world ∧
    (∀ n, session'.result = .ok n ↔ session.result = .ok n) ∧
    (∀ e, session'.result = .error (.close e) ↔ session.result = .error (.close e)) ∧
    (cut tokens').1.map (fun p => (p.verb, p.operands)) =
      (cut tokens).1.map (fun p => (p.verb, p.operands)) ∧
    (cut tokens).1.flatMap Phrase.tokens ++ (cut tokens).2 = tokens ∧
    run.calls = ((cut tokens).1.take (run.events.length + 1)).filterMap (Phrase.call? ctx) ∧
    ∀ p ∈ (cut tokens).1, ∀ c, p.command ctx = .ok c → p.Spells ctx c := by
  intro run run' session session'
  have hrun : run.Matches id run' := h.matches w
  have htrace : run'.trace = run.trace := by simpa only [List.map_id] using hrun.trace
  have hsession : session'.trace = session.trace := by
    simpa only [List.map_id] using trace_of_matches hrun
  have hevents : run'.events = run.events := congrArg (List.filterMap Occurrence.event?) htrace
  have hfollow : run = follow ctx client (cut tokens).2 (cut tokens).1 w :=
    interpret_eq_follow (cut_spec tokens) w
  refine ⟨congrArg (List.filterMap Occurrence.call?) htrace, hevents, ?_, htrace, hrun.world, hrun.cause,
    fun e e' he he' => ⟨typed_of_interpret he, ?_⟩, hsession, world_of_matches hrun,
    fun n => ok_of_matches hrun, fun e => close_of_matches hrun, h.cut, ?_, ?_,
    fun p _ c hc => Phrase.spells_of_command hc⟩
  · rw [Outcome.elapsed, htrace]
    rfl
  · rw [← hevents]
    exact typed_of_interpret he'
  · exact (cut_spec tokens).tokens_eq.symm
  · rw [hfollow]
    exact calls_follow ctx client _ _ w

/-- The client refuses the flush, spelt in full in the one list and by its letter
in the other. The metric of the first command is the word of a verb. -/
theorem spellings_are_invisible_refused_flush :
    let client := Recorder.client (.byKind true false)
    let w : World Recorder := ⟨Recorder.start, .ofSeconds 10⟩
    let tokens := ["incr", "flush", "g", "i", "3", "sleep", "1500ms", "flush", "decr"]
    let tokens' := ["i", "flush", "gauge", "i", "3", "s", "1500ms", "f", "d"]
    let run := interpret .bare client tokens w
    let run' := interpret .bare client tokens' w
    Respelt tokens tokens' ∧
    run.result = .error (.commandFailed "flush" (.client (.status 503 "unavailable"))) ∧
    run'.result = .error (.commandFailed "f" (.client (.status 503 "unavailable"))) ∧
    run'.calls = [.increment "flush" [], .gauge "i" (.ofNat 3) [], .flush] ∧
    run'.elapsed = run.elapsed ∧ (commandTokens tokens')[run.events.length]? = some "f" := by
  intro client w tokens tokens' run run'
  have hspelt : Respelt tokens tokens' :=
    .command ["flush"] rfl rfl rfl <|
      .command ["i", "3"] rfl rfl rfl <|
        .command ["1500ms"] rfl rfl rfl <|
          .command [] rfl rfl rfl <| .short rfl rfl (by decide)
  have hresult : run.result =
      .error (.commandFailed "flush" (.client (.status 503 "unavailable"))) := by decide +kernel
  have hresult' : run'.result =
      .error (.commandFailed "f" (.client (.status 503 "unavailable"))) := by decide +kernel
  obtain ⟨hcalls, -, helapsed, -, -, -, htyped, -⟩ := spellings_are_invisible hspelt .bare client w
  exact ⟨hspelt, hresult, hresult', hcalls.trans (by decide +kernel), helapsed,
    (htyped _ _ hresult hresult').2⟩

/-! ## Increments and decrements -/

/-- The buffering client has no way of its own to increment and decrement. -/
theorem SeriesClient.exists_base : ∃ base, SeriesClient.client = Client.viaCount base := ⟨_, rfl⟩

theorem calls_asCount (trace : List Occurrence) :
    (trace.map Occurrence.asCount).filterMap Occurrence.call? =
      (trace.filterMap Occurrence.call?).map Call.asCount := by
  rw [List.filterMap_map, List.map_filterMap]
  refine List.filterMap_congr fun x _ => ?_
  rcases x with call | event | d
  · rfl
  · cases event <;> rfl
  · rfl

theorem length_events_asCount (trace : List Occurrence) :
    ((trace.map Occurrence.asCount).filterMap Occurrence.event?).length =
      (trace.filterMap Occurrence.event?).length := by
  rw [List.filterMap_map, List.length_filterMap_eq_countP, List.length_filterMap_eq_countP]
  refine List.countP_congr fun x _ => ?_
  rcases x with call | event | d
  · exact Iff.rfl
  · cases event <;> exact Iff.rfl
  · exact Iff.rfl

/-- **An increment is a count of one, a decrement a count of minus one.** Where the
one token list has such a count in place of some increments and decrements of the
other, their runs hand a client that has no way of its own to do either the same
calls, each of them as the count that it asks for, and what they report are these
counts. They leave the same world, and succeed with the same number or fail for the
same cause, each naming the token of its own list where the command stands that
failed. So the buffering client is left with the same points, and its backend has
received the same, by the end of the run and by that of the session. -/
theorem increments_are_counts {tokens tokens' : List String} (h : CountedByOne tokens tokens')
    (ctx : Context) :
    (∀ {σ : Type} (base : Client σ) (w : World σ),
      let run := interpret ctx base.viaCount tokens w
      let run' := interpret ctx base.viaCount tokens' w
      run'.calls.map Call.asCount = run.calls.map Call.asCount ∧
      run'.trace.map Occurrence.asCount = run.trace.map Occurrence.asCount ∧ run'.world = run.world ∧
      run'.result.mapError RunError.cause? = run.result.mapError RunError.cause? ∧
      ∀ e e', run.result = .error e → run'.result = .error e' →
        (commandTokens tokens)[run.events.length]? = some e.typed ∧
        (commandTokens tokens')[run.events.length]? = some e'.typed) ∧
    ∀ w : World SeriesClient,
      let run := interpret ctx SeriesClient.client tokens w
      let run' := interpret ctx SeriesClient.client tokens' w
      let session := execute ctx SeriesClient.client tokens w
      let session' := execute ctx SeriesClient.client tokens' w
      run'.world.client.pending = run.world.client.pending ∧
      run'.world.client.backend.received = run.world.client.backend.received ∧
      run'.result.mapError RunError.cause? = run.result.mapError RunError.cause? ∧
      session'.world.client.backend.received = session.world.client.backend.received ∧
      (∀ n, session'.result = .ok n ↔ session.result = .ok n) ∧
      ∀ e, session'.result = .error (.close e) ↔ session.result = .error (.close e) := by
  refine ⟨fun {σ} base w => ?_, fun w => ?_⟩
  · intro run run'
    have hrun : run.Matches Occurrence.asCount run' := h.matches w
    have hevents : run'.events.length = run.events.length := by
      rw [Outcome.events, ← length_events_asCount, hrun.trace, length_events_asCount]
      rfl
    refine ⟨?_, hrun.trace, hrun.world, hrun.cause, fun e e' he he' => ⟨typed_of_interpret he, ?_⟩⟩
    · rw [Outcome.calls, ← calls_asCount, hrun.trace, calls_asCount]
      rfl
    · rw [← hevents]
      exact typed_of_interpret he'
  · intro run run' session session'
    obtain ⟨base, hbase⟩ := SeriesClient.exists_base
    have hrun : run.Matches Occurrence.asCount run' := by
      simp only [run, run', hbase]
      exact h.matches w
    exact ⟨congrArg (·.client.pending) hrun.world, congrArg (·.client.backend.received) hrun.world,
      hrun.cause, congrArg (·.client.backend.received) (world_of_matches hrun),
      fun n => ok_of_matches hrun, fun e => close_of_matches hrun⟩

/-- Some increments and decrements are replaced and some are not; the flush among
them is refused, and the last command lacks its name. -/
theorem increments_are_counts_refused_flush :
    let backend : Delivery.Backend :=
      .plain "127.0.0.1" 47125 fun i => .answered (if i = 1 then 503 else 202) []
    let w : World SeriesClient :=
      ⟨⟨"web-01", ⟨"secret"⟩, "http://127.0.0.1:47125/api/v1/series", [], false, backend⟩,
        .ofSeconds 10⟩
    let tokens := ["i", "a", "flush", "incr", "b", "d", "b", "f", "incr"]
    let tokens' := ["count", "a", "1", "flush", "incr", "b", "c", "b", "-1", "f", "incr"]
    let run := interpret .bare SeriesClient.client tokens w
    let run' := interpret .bare SeriesClient.client tokens' w
    CountedByOne tokens tokens' ∧
    run.result = .error (.commandFailed "f" (.client (.status 503 ""))) ∧
    run'.result.mapError RunError.cause? = .error (some (.client (.status 503 ""))) ∧
    run.world.client.backend.received.length = 2 ∧
    run'.world.client.backend.received = run.world.client.backend.received ∧
    run'.world.client.pending = run.world.client.pending := by
  intro backend w tokens tokens' run run'
  have hcounted : CountedByOne tokens tokens' :=
    .incr rfl rfl <| .same (p := ⟨"flush", .flush, []⟩) ⟨rfl, rfl⟩ <|
      .same (p := ⟨"incr", .incr, ["b"]⟩) ⟨rfl, rfl⟩ <| .decr rfl rfl <|
        .same (p := ⟨"f", .flush, []⟩) ⟨rfl, rfl⟩ <| .stuck (stuck_of_short rfl (by decide))
  have hresult : run.result = .error (.commandFailed "f" (.client (.status 503 ""))) := by
    decide +kernel
  obtain ⟨hpending, hreceived, hcause, -⟩ := (increments_are_counts hcounted .bare).2 w
  refine ⟨hcounted, hresult, hcause.trans ?_, by decide +kernel, hreceived, hpending⟩
  exact congrArg (Except.mapError RunError.cause?) hresult

end MetricStream
