/-
What a run reports.

A run completes the first commands of its token list, and ends where there is
none left or where the next one fails. What happens in it falls into what happens
for each command that completes and, last, the call that the client refused if
this is how the run ended. One event is logged for each command that completes,
in the words of its verb's long spelling and with the values that the client was
given, and none for one that fails (`one_report_per_command`).
-/
import Mathlib.Data.List.Forall2
import MetricStream.Client.Recorder
import MetricStream.Proofs.Interpreter.Unrefused
import MetricStream.Proofs.Interpreter.Writes

namespace MetricStream

/-- The event tells of a command with this verb, in full, and of these details. -/
structure Log.Event.Tells (event : Log.Event) (verb : Verb)
    (details : List (String × Log.FieldValue)) : Prop where
  level : event.level = .info
  message : event.message = verb.name
  fields : event.fields = ("verb", .text verb.name) :: details

/-- A command that completed. -/
structure Report where
  /-- What happened. -/
  trace : List Occurrence
  /-- The event that tells of it. -/
  event : Log.Event

/-- How a command of a token list completes: the client is called, or time passes,
and the one event that is logged tells what the client was given, or the pause. -/
inductive Phrase.Completes (ctx : Context) : Phrase → Report → Prop where
  | gauge {typed name value v event} (hread : readValue value = .ok v)
    (htells : event.Tells .gauge
      [("metric", .text (ctx.scope.text ++ name)), ("value", .number v)]) :
    Completes ctx ⟨typed, .gauge, [name, value]⟩
      ⟨[.called (.gauge (ctx.scope.text ++ name) v ctx.tags), .logged event], event⟩
  | count {typed name value v event} (hread : readValue value = .ok v)
    (htells : event.Tells .count
      [("metric", .text (ctx.scope.text ++ name)), ("value", .number v)]) :
    Completes ctx ⟨typed, .count, [name, value]⟩
      ⟨[.called (.count (ctx.scope.text ++ name) v ctx.tags), .logged event], event⟩
  | incr {typed name event}
    (htells : event.Tells .incr [("metric", .text (ctx.scope.text ++ name))]) :
    Completes ctx ⟨typed, .incr, [name]⟩
      ⟨[.called (.increment (ctx.scope.text ++ name) ctx.tags), .logged event], event⟩
  | decr {typed name event}
    (htells : event.Tells .decr [("metric", .text (ctx.scope.text ++ name))]) :
    Completes ctx ⟨typed, .decr, [name]⟩
      ⟨[.called (.decrement (ctx.scope.text ++ name) ctx.tags), .logged event], event⟩
  | sleep {typed pause d event} (hread : readPause pause = .ok d)
    (htells : event.Tells .sleep [("duration", .text (toString d))]) :
    Completes ctx ⟨typed, .sleep, [pause]⟩ ⟨[.logged event, .paused d], event⟩
  | flush {typed event} (htells : event.Tells .flush []) :
    Completes ctx ⟨typed, .flush, []⟩ ⟨[.called .flush, .logged event], event⟩

/-- The report of a command that is carried out. -/
def Command.report (tags : List String) (c : Command) : Report := ⟨c.occurrences tags, c.event⟩

theorem Phrase.Spells.completes {ctx : Context} {p : Phrase} {c : Command} (h : p.Spells ctx c) :
    p.Completes ctx (c.report ctx.tags) := by
  cases h with
  | gauge hread => exact .gauge hread ⟨rfl, rfl, rfl⟩
  | count hread => exact .count hread ⟨rfl, rfl, rfl⟩
  | incr => exact .incr ⟨rfl, rfl, rfl⟩
  | decr => exact .decr ⟨rfl, rfl, rfl⟩
  | sleep hread => exact .sleep hread ⟨rfl, rfl, rfl⟩
  | flush => exact .flush ⟨rfl, rfl, rfl⟩

theorem completes_of_spells {ctx : Context} {phrases : List Phrase} {commands : List Command}
    (h : List.Forall₂ (Phrase.Spells ctx) phrases commands) :
    List.Forall₂ (Phrase.Completes ctx) phrases (commands.map (Command.report ctx.tags)) :=
  List.forall₂_map_right_iff.2 (h.imp fun _ _ => Phrase.Spells.completes)

/-- The call that a client refused, as it happens in a run. -/
def refusal (refused : Option Call) : List Occurrence := (refused.map Occurrence.called).toList

theorem events_refusal (refused : Option Call) :
    (refusal refused).filterMap Occurrence.event? = [] := by
  cases refused <;> rfl

theorem flatMap_tokens_eq_nil {phrases : List Phrase} :
    phrases.flatMap Phrase.tokens = [] ↔ phrases = [] := by
  cases phrases with
  | nil => simp
  | cons p phrases => simp [Phrase.tokens]

/-- The outcome of a run that completes no command: there is none, or the first
one fails. -/
structure Halted {σ : Type} (tokens : List String) (refused : Option Call)
    (o : Outcome σ RunError Nat) : Prop where
  trace_eq : o.trace = refusal refused
  finished : ∀ n, o.result = .ok n → n = 0 ∧ tokens = [] ∧ refused = none
  failed : ∀ e, o.result = .error e → ∃ more, tokens = e.typed :: more

section

variable {σ : Type}

theorem halted_error (e : RunError) (more : List String) (refused : Option Call) (w : World σ) :
    Halted (e.typed :: more) refused ⟨.error e, refusal refused, w⟩ := by
  refine ⟨rfl, nofun, fun e' he => ?_⟩
  cases he
  exact ⟨more, rfl⟩

theorem halted_ending (rest : List String) (w : World σ) : Halted rest none ⟨ending rest, [], w⟩ := by
  rcases rest with _ | ⟨token, left⟩
  · refine ⟨rfl, fun n hn => ?_, nofun⟩
    cases hn
    exact ⟨rfl, rfl, rfl⟩
  rw [ending]
  rcases Verb.lookup? token with _ | verb
  · exact halted_error (.unknownCommand token) left none w
  · exact halted_error (.commandFailed token _) left none w

theorem Phrase.completes_or_halts (ctx : Context) (client : Client σ) (p : Phrase) (w : World σ) :
    (∃ c w', p.Spells ctx c ∧ ∀ rest phrases, follow ctx client rest (p :: phrases) w =
      (follow ctx client rest phrases w').afterOne (c.occurrences ctx.tags)) ∨
    ∃ refused, ∀ rest phrases, Halted ((p :: phrases).flatMap Phrase.tokens ++ rest) refused
      (follow ctx client rest (p :: phrases) w) := by
  rcases p.fate ctx client w with ⟨e, hc⟩ | ⟨c, d, hc, hd⟩ | ⟨c, call, s, e | ⟨⟨⟩⟩, hc, hd, ha⟩
  · refine .inr ⟨none, fun rest phrases => ?_⟩
    rw [follow_malformed phrases hc]
    exact halted_error (.commandFailed p.typed _) _ none w
  · refine .inl ⟨c, ⟨w.client, w.now.after d⟩, Phrase.spells_of_command hc, fun rest phrases => ?_⟩
    rw [follow_pause phrases hc hd, Command.occurrences_pause hd]
  · refine .inr ⟨some call, fun rest phrases => ?_⟩
    rw [follow_refused phrases hc hd ha]
    exact halted_error (.commandFailed p.typed _) _ (some call) ⟨s, w.now⟩
  · refine .inl ⟨c, ⟨s, w.now⟩, Phrase.spells_of_command hc, fun rest phrases => ?_⟩
    rw [follow_accepted phrases hc hd ha, Command.occurrences_ask hd]

/-- **A run completes its first commands and then halts.** -/
theorem follow_halted (ctx : Context) (client : Client σ) (rest : List String)
    (phrases : List Phrase) (w : World σ) :
    ∃ completed others commands refused, phrases = completed ++ others ∧
      List.Forall₂ (Phrase.Spells ctx) completed commands ∧
      (follow ctx client [] completed w).result = .ok completed.length ∧
      (follow ctx client [] completed w).trace = traceOf ctx.tags commands ∧
      Halted (others.flatMap Phrase.tokens ++ rest) refused
        (follow ctx client rest others (follow ctx client [] completed w).world) := by
  induction phrases generalizing w with
  | nil => exact ⟨[], [], [], none, rfl, .nil, rfl, rfl, halted_ending rest w⟩
  | cons p phrases ih =>
    rcases p.completes_or_halts ctx client w with ⟨c, w', hspell, hgoesOn⟩ | ⟨refused, hhalted⟩
    · obtain ⟨completed, others, commands, refused, rfl, hspells, hresult, htrace, hothers⟩ := ih w'
      refine ⟨p :: completed, others, c :: commands, refused, rfl, .cons hspell hspells, ?_, ?_, ?_⟩
        <;> rw [hgoesOn [] completed]
      · exact Outcome.afterOne_eq_ok.2 ⟨_, hresult, rfl⟩
      · rw [traceOf_cons, ← htrace]
        rfl
      · exact hothers
    · exact ⟨[], p :: phrases, [], refused, rfl, .nil, rfl, rfl, hhalted rest phrases⟩

theorem interpret_halted (ctx : Context) (client : Client σ) (tokens : List String) (w : World σ) :
    ∃ completed others rest commands refused, Cut tokens (completed ++ others) rest ∧
      List.Forall₂ (Phrase.Spells ctx) completed commands ∧
      let done := interpret ctx client (completed.flatMap Phrase.tokens) w
      let left := others.flatMap Phrase.tokens ++ rest
      done.result = .ok completed.length ∧ done.trace = traceOf ctx.tags commands ∧
      Halted left refused (interpret ctx client left done.world) ∧
      interpret ctx client tokens w = done.andThen (interpret ctx client left) := by
  have hcut := cut_spec tokens
  generalize (cut tokens).1 = phrases, (cut tokens).2 = rest at hcut
  obtain ⟨completed, others, commands, refused, rfl, hspells, hresult, htrace, hothers⟩ :=
    follow_halted ctx client rest phrases w
  refine ⟨completed, others, rest, commands, refused, hcut, hspells, ?_⟩
  have hdone : interpret ctx client (completed.flatMap Phrase.tokens) w =
      follow ctx client [] completed w := interpret_eq_follow hcut.init w
  have hleft : interpret ctx client (others.flatMap Phrase.tokens ++ rest) =
      follow ctx client rest others := funext (interpret_eq_follow hcut.final)
  have htokens : completed.flatMap Phrase.tokens ++ (others.flatMap Phrase.tokens ++ rest) = tokens := by
    simp [hcut.tokens_eq]
  rw [← hdone] at hresult htrace hothers
  rw [← hleft] at hothers
  exact ⟨hresult, htrace, hothers, htokens ▸ interpret_append hresult _⟩

end

/-- **One report for each command.** A run logs one event for each command that
completes, in order, and no other; these commands are the first of the token list.
If the run succeeds there are no others, and its result is their number. If it
fails, they are the commands before the one that fails: their tokens alone are
interpreted with success, and what is left begins with the token that the error
names, and fails at once, without an event. -/
theorem one_report_per_command {σ : Type} (ctx : Context) (client : Client σ)
    (tokens : List String) (w : World σ) :
    let run := interpret ctx client tokens w
    ∃ completed others rest reports refused, Cut tokens (completed ++ others) rest ∧
      List.Forall₂ (Phrase.Completes ctx) completed reports ∧
      run.events = reports.map Report.event ∧
      run.trace = reports.flatMap Report.trace ++ refusal refused ∧
      (∀ n, run.result = .ok n → n = run.events.length ∧ others = [] ∧ rest = [] ∧ refused = none) ∧
      (∀ e, run.result = .error e →
        let done := interpret ctx client (completed.flatMap Phrase.tokens) w
        let left := others.flatMap Phrase.tokens ++ rest
        done.result = .ok run.events.length ∧ done.events = run.events ∧
        (∃ more, left = e.typed :: more) ∧
        interpret ctx client left done.world = ⟨.error e, refusal refused, run.world⟩) := by
  intro run
  obtain ⟨completed, others, rest, commands, refused, hcut, hspells, hdone, htold, hleft, hrun⟩ :=
    interpret_halted ctx client tokens w
  rw [Outcome.andThen_ok hdone, htold, hleft.trace_eq] at hrun
  have htrace : run.trace = traceOf ctx.tags commands ++ refusal refused := congrArg Outcome.trace hrun
  have hresult : run.result = Except.map (· + completed.length) _ := congrArg Outcome.result hrun
  have hevents : run.events = commands.map Command.event := by
    rw [Outcome.events, htrace, List.filterMap_append, events_traceOf, events_refusal, List.append_nil]
  have hnumber : run.events.length = completed.length := by
    rw [hevents, List.length_map, hspells.length_eq]
  refine ⟨completed, others, rest, commands.map (Command.report ctx.tags), refused, hcut,
    completes_of_spells hspells, ?_, ?_, fun n hn => ?_, fun e he => ?_⟩
  · rw [hevents, List.map_map]
    rfl
  · rw [htrace, List.flatMap_map]
    rfl
  · obtain ⟨m, hm, rfl⟩ := exists_of_map_eq_ok (hresult.symm.trans hn)
    obtain ⟨rfl, hempty, hrefused⟩ := hleft.finished m hm
    obtain ⟨hothers, rfl⟩ := List.append_eq_nil_iff.1 hempty
    exact ⟨by rw [hnumber, Nat.zero_add], flatMap_tokens_eq_nil.1 hothers, rfl, hrefused⟩
  · intro done left
    have herror : (interpret ctx client left done.world).result = .error e :=
      map_eq_error.1 (hresult.symm.trans he)
    have hworld : run.world = (interpret ctx client left done.world).world := by
      show (interpret ctx client tokens w).world = _
      rw [hrun]
    refine ⟨by rw [hnumber]; exact hdone, ?_, hleft.failed e herror, ?_⟩
    · rw [hevents, Outcome.events, htold, events_traceOf]
    · rw [hworld, ← herror, ← hleft.trace_eq]

/-- The client refuses the flush, which is the fourth command. The three before it
have one report each, under the long spellings of their verbs. -/
theorem one_report_per_command_refused_flush :
    let ctx : Context := ⟨.ofText "web", ["env:prod"]⟩
    let client := Recorder.client (.byKind true false)
    let tokens := ["g", "load", "3", "s", "1500ms", "i", "flush", "f", "d", "hits"]
    let run := interpret ctx client tokens ⟨Recorder.start, .ofSeconds 10⟩
    run.result = .error (.commandFailed "f" (.client (.status 503 "unavailable"))) ∧
    run.events.map Log.Event.fields =
      [[("verb", .text "gauge"), ("metric", .text "web.load"), ("value", .number (.ofNat 3))],
        [("verb", .text "sleep"), ("duration", .text "1.5s")],
        [("verb", .text "incr"), ("metric", .text "web.flush")]] ∧
    ∃ completed others rest, Cut tokens (completed ++ others) rest ∧ completed.length = 3 ∧
      ∃ more, others.flatMap Phrase.tokens ++ rest = "f" :: more := by
  intro ctx client tokens run
  have hresult : run.result = .error (.commandFailed "f" (.client (.status 503 "unavailable"))) := by
    decide +kernel
  have hnumber : run.events.length = 3 := by decide +kernel
  obtain ⟨completed, others, rest, reports, refused, hcut, hreports, hevents, -, -, hfailed⟩ :=
    one_report_per_command ctx client tokens ⟨Recorder.start, .ofSeconds 10⟩
  obtain ⟨-, -, hleft, -⟩ := hfailed _ hresult
  refine ⟨hresult, by decide +kernel, completed, others, rest, hcut, ?_, hleft⟩
  have hlength : run.events.length = reports.length := by rw [hevents, List.length_map]
  rw [hreports.length_eq, ← hlength, hnumber]

end MetricStream
