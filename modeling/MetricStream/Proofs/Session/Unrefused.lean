/-
Sessions in which nothing is refused.

The close adds nothing to what the run comes to, so such a session is what its
tokens make it, whoever the client is (`execute_unrefused`). A dry run refuses
nothing at all, and the buffering client nothing if all its submissions are
accepted. So a dry run tells what the real run will report and come to
(`dry_run_foretells`).
-/
import MetricStream.Client.DryRun
import MetricStream.Proofs.Interpreter.Unrefused
import MetricStream.Proofs.Session.Delivery

namespace MetricStream

/-! ## Any client -/

section

variable {σ : Type} {ctx : Context} {client : Client σ} {tokens : List String} {w : World σ}

/-- **A session in which nothing is refused** is what its tokens make it. -/
theorem execute_unrefused
    (h : ∀ x ∈ client.exchanges (turnsOf w.now (execute ctx client tokens w).trace) w.client,
      x.answer = .ok ()) :
    (execute ctx client tokens w).result =
        (verdict ctx (cut tokens).2 (cut tokens).1).mapError .run ∧
      (execute ctx client tokens w).trace =
        traceOf ctx.tags (legible ctx (cut tokens).1) ++ [.called .close] := by
  have hclient := (interpret_accounts ctx client tokens w).client_eq
  have hrun (e : RunError) := execute_eq_run ctx client tokens w (e := e)
  have hok (n : Nat) := execute_eq_ok ctx client tokens w (n := n)
  rw [turnsOf_execute, client.exchanges_append, List.forall_mem_append, ← hclient] at h
  obtain ⟨hresult, htrace⟩ := interpret_unrefused h.1
  have hclose : (client.answer (interpret ctx client tokens w).world.now .close
      (interpret ctx client tokens w).world.client).2 = .ok () :=
    h.2 _ (List.mem_singleton_self _)
  rw [← hresult, ← htrace, execute_trace, hclose]
  rcases hr : (interpret ctx client tokens w).result with e | n
  · exact ⟨(hrun e).2 hr, rfl⟩
  · exact ⟨(hok n).2 ⟨hr, hclose⟩, rfl⟩

end

/-! ## The dry run -/

/-- The call is given a metric. -/
def Call.isMetric : Call → Bool
  | .gauge _ _ _ => true
  | .count _ _ _ => true
  | .increment _ _ => true
  | .decrement _ _ => true
  | .flush => false
  | .close => false

/-- The command writes a metric. -/
def Command.isMetric : Command → Bool
  | .gauge _ _ => true
  | .count _ _ => true
  | .incr _ => true
  | .decr _ => true
  | .sleep _ => false
  | .flush => false

theorem countP_isMetric (tags : List String) (commands : List Command) :
    (commands.filterMap (Command.call? tags)).countP Call.isMetric =
      commands.countP Command.isMetric := by
  rw [List.countP_filterMap]
  congr 1
  funext c
  cases c <;> rfl

namespace DryRun

theorem answer_ok (now : Instant) (call : Call) (s : DryRun) :
    (client.answer now call s).2 = .ok () := by
  cases call <;> rfl

theorem exchanges_ok (turns : List Turn) (s : DryRun) :
    ∀ x ∈ client.exchanges turns s, x.answer = .ok () := by
  induction turns generalizing s with
  | nil => exact List.forall_mem_nil _
  | cons t turns ih => exact List.forall_mem_cons.2 ⟨answer_ok t.now t.call s, ih _⟩

theorem actions_after (turns : List Turn) (s : DryRun) :
    (client.after turns s).actions = s.actions + (turns.map (·.call)).countP Call.isMetric := by
  induction turns generalizing s with
  | nil => rfl
  | cons t turns ih =>
    have hone : (client.answer t.now t.call s).1.actions =
        s.actions + if t.call.isMetric then 1 else 0 := by
      cases t.call <;> rfl
    rw [Client.after, ih, hone, List.map_cons, List.countP_cons]
    omega

end DryRun

/-! ## The buffering client -/

open SeriesClient (client)

/-- A backend that listens at the client's address and accepts whatever it is
sent accepts every submission, if the key can be written in a header. -/
theorem SeriesClient.accepted_of_backend {s : SeriesClient}
    (hkey : Delivery.Backend.canCarry s.apiKey.secret = true)
    (hurl : (s.url?.filter s.backend.listensAt).isSome = true)
    (hscript : ∀ i, (s.backend.script i).isAccepted = true) (turns : List Turn) :
    ∀ a ∈ attempts turns s, a.reply.isAccepted = true := by
  induction turns generalizing s with
  | nil => exact List.forall_mem_nil _
  | cons t turns ih =>
    rw [attempts, List.forall_mem_append]
    constructor
    · intro a ha
      rw [Option.mem_toList] at ha
      unfold attempt? at ha
      split at ha
      case isFalse => cases ha
      cases ha
      obtain ⟨url, hurl⟩ := Option.isSome_iff_exists.1 hurl
      simp only [post_eq, request?, hkey, if_true, hurl, Option.map_some]
      rw [Delivery.Reply.isAccepted_arriving]
      exact hscript _
    · obtain ⟨pending, closed, hs⟩ := answer_frame t s
      refine ih ?_ ?_ ?_ <;> rw [hs]
      · exact hkey
      · exact hurl
      · exact hscript

/-- In a session of a new client all of whose submissions are accepted, the
backend receives them in order: each was posted to where series are submitted,
and its points are what a receiver reads in its body. -/
theorem received_of_session {host : String} {key : ApiKey} {options : DeliveryOptions}
    {backend : Delivery.Backend} {s : SeriesClient}
    (hnew : SeriesClient.create host key options backend = .ok s) {ctx : Context}
    {tokens : List String} {now : Instant}
    (haccepted : ∀ a ∈ SeriesClient.attempts
      (turnsOf now (execute ctx client tokens ⟨s, now⟩).trace) s, a.reply.isAccepted = true) :
    ∃ requests, (execute ctx client tokens ⟨s, now⟩).world.client.backend.received =
        backend.received ++ requests ∧
      List.Forall₂ (fun points (r : Delivery.Request) => ∃ url,
          Delivery.Url.TakesSeries backend.plainName options.apiUrl url ∧ r.Submits url key host points)
        ((SeriesClient.attempts (turnsOf now (execute ctx client tokens ⟨s, now⟩).trace) s).map
          (·.points)) requests := by
  have hs := SeriesClient.create_eq_ok hnew
  have hhost : s.host = host := congrArg SeriesClient.host hs
  have hkey : s.apiKey = key := congrArg SeriesClient.apiKey hs
  have hbackend : s.backend = backend := congrArg SeriesClient.backend hs
  obtain ⟨requests, hreceived, hrequests⟩ := SeriesClient.received_after fun a ha =>
    Delivery.Reply.ne_lost (haccepted a ha)
  rw [hbackend] at hreceived
  refine ⟨requests, ?_, List.forall₂_map_left_iff.2 (hrequests.imp fun a r hr => ?_)⟩
  · rw [execute_client]
    exact hreceived
  · obtain ⟨url, hurl, rfl⟩ := hr
    rw [hhost, hkey]
    exact ⟨url, SeriesClient.takesSeries_of_url? hnew hurl, SeriesClient.submits_request url key host _⟩

/-- **A dry run foretells the real one.** A real session, of a new client all
of whose submissions are accepted, and the dry session of the same tokens make
the same calls, report the same and pause for the same time, all in the same
order, and come to the same result or the same error. What they report is the
commands that they carry out, and the dry run ends with as many actions as there
are writes of a metric among these. -/
theorem dry_run_foretells {host : String} {key : ApiKey} {options : DeliveryOptions}
    {backend : Delivery.Backend} {s : SeriesClient}
    (hnew : SeriesClient.create host key options backend = .ok s) (ctx : Context)
    (tokens : List String) (now : Instant)
    (haccepted : ∀ a ∈ SeriesClient.attempts
      (turnsOf now (execute ctx client tokens ⟨s, now⟩).trace) s, a.reply.isAccepted = true) :
    let real := execute ctx client tokens ⟨s, now⟩
    let dry := execute ctx DryRun.client tokens ⟨DryRun.start, now⟩
    let done := legible ctx (cut tokens).1
    dry.result = real.result ∧ dry.trace = real.trace ∧ dry.events = real.events ∧
    dry.elapsed = real.elapsed ∧ dry.world.now = real.world.now ∧
    dry.events = done.map Command.event ∧
    dry.world.client.actions = done.countP Command.isMetric := by
  intro real dry done
  obtain ⟨-, hopen⟩ := SeriesClient.create_fresh hnew
  obtain ⟨hresult, htrace⟩ := execute_unrefused (w := ⟨s, now⟩)
    ((session_accepted_iff hopen).2 haccepted)
  obtain ⟨hdry, hdryTrace⟩ := execute_unrefused (w := ⟨DryRun.start, now⟩)
    (DryRun.exchanges_ok (turnsOf now (execute ctx DryRun.client tokens ⟨DryRun.start, now⟩).trace) _)
  have hsame : dry.trace = real.trace := hdryTrace.trans htrace.symm
  refine ⟨hdry.trans hresult.symm, hsame, ?_, ?_, ?_, ?_, ?_⟩
  · rw [Outcome.events, hsame]
    rfl
  · rw [Outcome.elapsed, hsame]
    rfl
  · rw [execute_now, execute_now, hsame]
  · rw [Outcome.events, hdryTrace, List.filterMap_append, events_traceOf]
    exact List.append_nil _
  · rw [execute_client, DryRun.actions_after, calls_turnsOf, hdryTrace, List.filterMap_append,
      calls_traceOf, List.countP_append, countP_isMetric]
    exact Nat.zero_add _

/-- The last command lacks its value. The dry run says so, and the real session,
which submits twice, fails with the same. -/
theorem dry_run_foretells_missing_value :
    let options : DeliveryOptions := ⟨"http://127.0.0.1:47125", .ofMillis 5000⟩
    let backend : Delivery.Backend := .plain "127.0.0.1" 47125 fun _ => .answered 202 []
    let tokens := ["gauge", "load", "1.5", "flush", "i", "hits", "sleep", "1500ms", "decr", "flush",
      "gauge", "load"]
    let dry := execute .bare DryRun.client tokens ⟨DryRun.start, .ofSeconds 10⟩
    ∃ s : SeriesClient, SeriesClient.create "web-01" ⟨"secret"⟩ options backend = .ok s ∧
      let real := execute .bare client tokens ⟨s, .ofSeconds 10⟩
      (∀ a ∈ SeriesClient.attempts (turnsOf (.ofSeconds 10) real.trace) s,
        a.reply.isAccepted = true) ∧
      real.result = .error (.run (.commandFailed "gauge" (.operand (.missing 2 1)))) ∧
      real.events = dry.events ∧ real.elapsed = ⟨1500000000⟩ ∧ dry.world.client.actions = 3 := by
  intro options backend tokens dry
  have hnew : SeriesClient.create "web-01" ⟨"secret"⟩ options backend =
      .ok (.fresh "web-01" options backend ⟨"secret"⟩) :=
    SeriesClient.create_nonblank _ _ _ (by decide)
  refine ⟨_, hnew, ?_⟩
  intro real
  have haccepted := SeriesClient.accepted_of_backend
    (s := .fresh "web-01" options backend ⟨"secret"⟩)
    (by decide) (by decide +kernel) (fun _ => rfl) (turnsOf (.ofSeconds 10) real.trace)
  obtain ⟨hresult, -, hevents, helapsed, -, -, hactions⟩ :=
    dry_run_foretells hnew .bare tokens (.ofSeconds 10) haccepted
  refine ⟨haccepted, hresult.symm.trans ?_, hevents.symm, helapsed.symm.trans ?_, hactions.trans ?_⟩ <;>
    decide +kernel

end MetricStream
