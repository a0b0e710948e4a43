/-
The submissions of a session of the buffering client.

A submission that is not accepted is refused to whoever asked for it. If that
was a flush, the run is over, and the close finds nothing to submit, for the
points were given up; if it was the close, the session is over. So only the last
submission of a session can fail (`session_turns`), and nothing is sent after it
(`no_submission_after_failure`).
-/
import MetricStream.Proofs.Series.Posting
import MetricStream.Proofs.Session.Closing

namespace MetricStream

open SeriesClient (client)

/-! ## Flushes -/

theorem Command.call?_eq_flush {tags : List String} {c : Command} :
    c.call? tags = some .flush ↔ c = .flush := by
  cases c <;> simp [call?, deed]

theorem count_flush (tags : List String) (commands : List Command) :
    (commands.filterMap (Command.call? tags)).count .flush = commands.count .flush := by
  rw [List.count_filterMap, List.count]
  congr 1
  funext c
  rw [Bool.eq_iff_iff, beq_iff_eq, beq_iff_eq, Command.call?_eq_flush]

/-! ## One session -/

/-- Calls that an open client has accepted, none of them the close, made accepted
submissions only, and no more of them than flushes. -/
theorem submissions_of_accepted {tags : List String} {commands : List Command} {turns : List Turn}
    {s : SeriesClient} (hopen : s.closed = false)
    (hsafe : ∀ t ∈ turns, t.call ≠ .close ∧ ∀ w, t.write? = some w → w.value.isFinite = true)
    (hcalls : turns.map (·.call) = commands.filterMap (Command.call? tags))
    (haccepted : ∀ x ∈ client.exchanges turns s, x.answer = .ok ()) :
    (client.after turns s).closed = false ∧
    (∀ a ∈ SeriesClient.attempts turns s, a.reply.isAccepted = true) ∧
    (SeriesClient.attempts turns s).length ≤ commands.count .flush := by
  have hclose : ∀ t ∈ turns, t.call ≠ .close := fun t ht => (hsafe t ht).1
  refine ⟨SeriesClient.closed_after hopen hclose, ?_, ?_⟩
  · exact (SeriesClient.exchanges_ok hopen hclose fun t ht => (hsafe t ht).2).1 haccepted
  · rw [← count_flush tags, ← hcalls]
    exact SeriesClient.length_attempts_le hclose s

/-- **Where a session submits for the last time.** Up to some call every
submission is accepted, and there are no more of them than flushes carried out;
after this call nothing is submitted. If the client is why the session failed,
then it did not accept the submission of this call, and that is its reason. -/
theorem session_turns (ctx : Context) (tokens : List String) (w : World SeriesClient)
    (hopen : w.client.closed = false) :
    ∃ early t late, turnsOf w.now (execute ctx client tokens w).trace = early ++ t :: late ∧
      (∀ a ∈ SeriesClient.attempts early w.client, a.reply.isAccepted = true) ∧
      (SeriesClient.attempts early w.client).length ≤
        (carriedOut ctx client (cut tokens).1 w).count .flush ∧
      SeriesClient.attempts late (client.after (early ++ [t]) w.client) = [] ∧
      ∀ e cause, (execute ctx client tokens w).result = .error e → e.client? = some cause →
        ∃ a, (client.after early w.client).attempt? t.call = some a ∧
          SeriesClient.judge a.reply = .error cause := by
  have hsafe := safe_of_interpret ctx client tokens w
  have hhalts := interpret_halts ctx client tokens w
  have hclient := (interpret_accounts ctx client tokens w).client_eq
  have hrun (e : RunError) := execute_eq_run ctx client tokens w (e := e)
  have hclose (e : ClientError) := execute_eq_close ctx client tokens w (e := e)
  rw [turnsOf_execute]
  generalize turnsOf w.now (interpret ctx client tokens w).trace = turns at hsafe hhalts hclient ⊢
  generalize (interpret ctx client tokens w).result = result at hhalts hrun hclose
  cases hhalts with
  | unrefused hcalls haccepted hresult =>
    -- The close is the call: it can fail, and nothing comes after it.
    obtain ⟨hstill, hall, hcount⟩ := submissions_of_accepted hopen hsafe hcalls haccepted
    refine ⟨turns, ⟨(interpret ctx client tokens w).world.now, .close⟩, [], rfl, hall, hcount, rfl, ?_⟩
    intro e cause he hcause
    rw [← hclient] at hstill ⊢
    match e with
    | .run (.commandFailed typed (.client e')) => exact absurd ((hrun _).1 he) (hresult typed e')
    | .close e' =>
      obtain rfl := Option.some.inj hcause
      exact SeriesClient.attempt_of_refused hstill (by simp [Turn.write?]) ((hclose e').1 he).2
  | @refused early t typed e hcalls haccepted hrefused =>
    -- The refused flush is the call: it has left nothing for the close.
    obtain ⟨hstill, hall, hcount⟩ :=
      submissions_of_accepted hopen (fun u hu => hsafe u (List.mem_append_left _ hu)) hcalls haccepted
    obtain ⟨a, ha, hjudge⟩ := SeriesClient.attempt_of_refused hstill (hsafe t (by simp)).2 hrefused
    have hempty : (client.after (early ++ [t]) w.client).pending = [] := by
      rw [client.after_append]
      exact SeriesClient.pending_of_attempt ha
    refine ⟨early, t, [⟨(interpret ctx client tokens w).world.now, .close⟩], by simp, hall, hcount, ?_, ?_⟩
    · simp [SeriesClient.attempts, SeriesClient.attempt?_empty hempty]
    · intro e' cause he hcause
      rw [(hrun (.commandFailed typed (.client e))).2 rfl, Except.error.injEq] at he
      subst he
      obtain rfl := Option.some.inj hcause
      exact ⟨a, ha, hjudge⟩

theorem closed_of_interpret (ctx : Context) (tokens : List String) {w : World SeriesClient}
    (hopen : w.client.closed = false) :
    (interpret ctx client tokens w).world.client.closed = false := by
  rw [(interpret_accounts ctx client tokens w).client_eq]
  exact SeriesClient.closed_after hopen fun t ht => (safe_of_interpret ctx client tokens w t ht).1

theorem pending_of_refusal {ctx : Context} {tokens : List String} {w : World SeriesClient}
    (hopen : w.client.closed = false) {typed : String} {e : ClientError}
    (h : (interpret ctx client tokens w).result = .error (.commandFailed typed (.client e))) :
    (interpret ctx client tokens w).world.client.pending = [] := by
  have hsafe := safe_of_interpret ctx client tokens w
  have hhalts := interpret_halts ctx client tokens w
  rw [(interpret_accounts ctx client tokens w).client_eq]
  rw [h] at hhalts
  generalize turnsOf w.now (interpret ctx client tokens w).trace = turns at hsafe hhalts ⊢
  cases hhalts with
  | unrefused hcalls haccepted hresult => exact absurd rfl (hresult typed e)
  | refused early t hcalls haccepted hrefused =>
    have hstill : (client.after early w.client).closed = false :=
      SeriesClient.closed_after hopen fun u hu => (hsafe u (List.mem_append_left _ hu)).1
    obtain ⟨a, ha, -⟩ := SeriesClient.attempt_of_refused hstill (hsafe t (by simp)).2 hrefused
    rw [client.after_append]
    exact SeriesClient.pending_of_attempt ha

theorem last_of_refused {early late : List Turn} {t : Turn} {s : SeriesClient}
    (haccepted : ∀ a ∈ SeriesClient.attempts early s, a.reply.isAccepted = true)
    (hlate : SeriesClient.attempts late (client.after (early ++ [t]) s) = []) {i : Nat} {a : Attempt}
    (ha : (SeriesClient.attempts (early ++ t :: late) s)[i]? = some a)
    (hrefused : a.reply.isAccepted = false) :
    i + 1 = (SeriesClient.attempts (early ++ t :: late) s).length := by
  have hone := Option.length_toList_le (o := (client.after early s).attempt? t.call)
  rw [SeriesClient.attempts_last hlate, List.getElem?_append] at ha
  rw [SeriesClient.attempts_last hlate, List.length_append]
  split at ha
  · exact absurd (haccepted a (List.mem_of_getElem? ha)) (by simp [hrefused])
  · obtain ⟨hi, -⟩ := List.getElem?_eq_some_iff.1 ha
    omega

theorem accepted_of_earlier {early late : List Turn} {t : Turn} {s : SeriesClient}
    (haccepted : ∀ a ∈ SeriesClient.attempts early s, a.reply.isAccepted = true)
    (hlate : SeriesClient.attempts late (client.after (early ++ [t]) s) = []) {i : Nat}
    (hi : s.backend.received.length ≤ i)
    (hlt : i + 1 < (client.after (early ++ t :: late) s).backend.received.length) :
    (s.backend.script i).isAccepted = true := by
  have hsent := SeriesClient.length_received_le (early ++ t :: late) s
  have hone := Option.length_toList_le (o := (client.after early s).attempt? t.call)
  rw [SeriesClient.attempts_last hlate, List.length_append] at hsent
  obtain ⟨j, rfl⟩ := Nat.exists_eq_add_of_le hi
  have hj : j < (SeriesClient.attempts early s).length := by omega
  obtain ⟨url, -, -, hreply⟩ := SeriesClient.received_of_attempts
    (fun a ha => Delivery.Reply.ne_lost (haccepted a ha))
    (List.getElem?_eq_getElem hj)
  rw [← Delivery.Reply.isAccepted_arriving, ← hreply]
  exact haccepted _ (List.getElem_mem hj)

/-- The reply to a session's last submission, if there is one, is the script's to
the last request. -/
theorem reply_of_last {early late : List Turn} {t : Turn} {s : SeriesClient} {a : Attempt}
    (haccepted : ∀ a ∈ SeriesClient.attempts early s, a.reply.isAccepted = true)
    (hlate : SeriesClient.attempts late (client.after (early ++ [t]) s) = [])
    (ha : (client.after early s).attempt? t.call = some a) (hreply : a.reply ≠ .lost) :
    ∃ i, s.backend.received.length ≤ i ∧
      (client.after (early ++ t :: late) s).backend.received.length = i + 1 ∧
      a.reply = (s.backend.script i).arriving := by
  have hattempts : SeriesClient.attempts (early ++ t :: late) s = SeriesClient.attempts early s ++ [a] := by
    rw [SeriesClient.attempts_last hlate, ha]
    rfl
  have hanswered : ∀ b ∈ SeriesClient.attempts (early ++ t :: late) s, b.reply ≠ .lost := by
    intro b hb
    rw [hattempts, List.mem_append, List.mem_singleton] at hb
    rcases hb with hb | rfl
    · exact Delivery.Reply.ne_lost (haccepted b hb)
    · exact hreply
  obtain ⟨url, -, hreceived, hscript⟩ := SeriesClient.received_of_attempts hanswered
    (j := (SeriesClient.attempts early s).length) (a := a) (by simp [hattempts])
  obtain ⟨hlast, -⟩ := List.getElem?_eq_some_iff.1 hreceived
  -- There are no more requests than attempts, and this attempt is the last.
  have hsent := SeriesClient.length_received_le (early ++ t :: late) s
  rw [hattempts, List.length_append, List.length_singleton] at hsent
  exact ⟨_, Nat.le_add_right _ _, Nat.le_antisymm hsent hlast, hscript⟩

/-- **Nothing is submitted after a submission that failed**, and nothing twice.
In a session of a new client only the last submission can be one that was not
accepted, and only the last request that the backend received one that it did
not accept. There is at most one submission more than there are flushes among
the commands carried out, which are those that the run reports. Where a flush
fails the run, its submission is the last, and the close succeeds with nothing
to do. However the session ends, the client is closed and has no point left. -/
theorem no_submission_after_failure {host : String} {key : ApiKey} {options : DeliveryOptions}
    {backend : Delivery.Backend} {s : SeriesClient}
    (hnew : SeriesClient.create host key options backend = .ok s) (ctx : Context)
    (tokens : List String) (now : Instant) :
    let run := interpret ctx client tokens ⟨s, now⟩
    let o := execute ctx client tokens ⟨s, now⟩
    let attempts := SeriesClient.attempts (turnsOf now o.trace) s
    let received := o.world.client.backend.received
    let done := carriedOut ctx client (cut tokens).1 ⟨s, now⟩
    received = backend.received ++ attempts.filterMap (fun a => s.request? a.points) ∧
    (∀ i a, attempts[i]? = some a → a.reply.isAccepted = false → i + 1 = attempts.length) ∧
    (∀ i, backend.received.length ≤ i → i + 1 < received.length →
      (backend.script i).isAccepted = true) ∧
    run.events = done.map Command.event ∧ attempts.length ≤ done.count .flush + 1 ∧
    (∀ typed e, run.result = .error (.commandFailed typed (.client e)) →
      (∃ a, attempts.getLast? = some a ∧ SeriesClient.judge a.reply = .error e) ∧
      client.answer run.world.now .close run.world.client =
        ({ run.world.client with closed := true }, .ok ())) ∧
    o.world.client.closed = true ∧ o.world.client.pending = [] := by
  intro run o attempts received done
  have hbackend : s.backend = backend := by rw [SeriesClient.create_eq_ok hnew]
  obtain ⟨-, hopen⟩ := SeriesClient.create_fresh hnew
  obtain ⟨early, t, late, hturns, haccepted, hcount, hlate, hcause⟩ :=
    session_turns ctx tokens ⟨s, now⟩ hopen
  have hclient : o.world.client = client.after (early ++ t :: late) s :=
    hturns ▸ execute_client ctx client tokens ⟨s, now⟩
  have hmade : attempts = SeriesClient.attempts (early ++ t :: late) s := by rw [← hturns]
  have hattempts : attempts = SeriesClient.attempts early s ++
      ((client.after early s).attempt? t.call).toList := hmade.trans (SeriesClient.attempts_last hlate)
  have hone := Option.length_toList_le (o := (client.after early s).attempt? t.call)
  have hstill : run.world.client.closed = false := closed_of_interpret ctx tokens hopen
  refine ⟨?_, ?_, ?_, interpret_events ctx client tokens _, ?_, ?_, ?_⟩
  · obtain ⟨pending, closed, hafter⟩ := SeriesClient.after_frame (early ++ t :: late) s
    show o.world.client.backend.received = _
    rw [hclient, hafter, ← hturns, ← hbackend]
  · intro i a ha hrefused
    rw [hmade] at ha ⊢
    exact last_of_refused haccepted hlate ha hrefused
  · intro i hi hlt
    rw [← hbackend] at hi ⊢
    exact accepted_of_earlier haccepted hlate hi (hclient ▸ hlt)
  · rw [hattempts, List.length_append]
    exact Nat.add_le_add hcount hone
  · intro typed e he
    have hempty : run.world.client.pending = [] := pending_of_refusal hopen he
    obtain ⟨a, ha, hjudge⟩ := hcause (.run (.commandFailed typed (.client e))) e
      ((execute_eq_run ctx client tokens _).2 he) rfl
    refine ⟨⟨a, by simp [hattempts, ha], hjudge⟩, ?_⟩
    rw [SeriesClient.answer_open (t := ⟨run.world.now, .close⟩) rfl hstill,
      SeriesClient.submit_empty hempty]
    rfl
  · rw [execute_world, SeriesClient.answer_open (t := ⟨run.world.now, .close⟩) rfl hstill]
    exact ⟨rfl, SeriesClient.submit_pending _⟩

/-- The second of two submissions fails: a third flush is not reached, and the
close submits nothing. -/
theorem no_submission_after_failure_second_flush :
    let options : DeliveryOptions := ⟨"http://127.0.0.1:47125", .ofMillis 5000⟩
    let backend : Delivery.Backend :=
      .plain "127.0.0.1" 47125 fun i => .answered (if i = 1 then 503 else 202) []
    let tokens := ["incr", "a", "flush", "incr", "b", "flush", "incr", "c", "flush"]
    ∃ s : SeriesClient, SeriesClient.create "web-01" ⟨"secret"⟩ options backend = .ok s ∧
      let run := interpret .bare client tokens ⟨s, .ofSeconds 10⟩
      let o := execute .bare client tokens ⟨s, .ofSeconds 10⟩
      run.result = .error (.commandFailed "flush" (.client (.status 503 ""))) ∧
      (∃ a, (SeriesClient.attempts (turnsOf (.ofSeconds 10) o.trace) s).getLast? = some a ∧
        SeriesClient.judge a.reply = .error (.status 503 "")) ∧
      (SeriesClient.attempts (turnsOf (.ofSeconds 10) o.trace) s).length ≤ 2 ∧
      (client.answer run.world.now .close run.world.client).2 = .ok () ∧
      o.world.client.closed = true ∧ o.world.client.pending = [] := by
  intro options backend tokens
  have hnew : SeriesClient.create "web-01" ⟨"secret"⟩ options backend =
      .ok (.fresh "web-01" options backend ⟨"secret"⟩) :=
    SeriesClient.create_nonblank _ _ _ (by decide)
  obtain ⟨-, -, -, -, hcount, hrefusal, hclosed, hempty⟩ :=
    no_submission_after_failure hnew .bare tokens (.ofSeconds 10)
  refine ⟨_, hnew, ?_⟩
  intro run o
  have hrun : run.result = .error (.commandFailed "flush" (.client (.status 503 ""))) := by
    decide +kernel
  obtain ⟨hlast, hclose⟩ := hrefusal _ _ hrun
  have hflushes : (carriedOut .bare client (cut tokens).1
      ⟨.fresh "web-01" options backend ⟨"secret"⟩, .ofSeconds 10⟩).count .flush = 1 := by
    decide +kernel
  exact ⟨hrun, hlast, Nat.le_trans hcount (Nat.succ_le_succ (Nat.le_of_eq hflushes)),
    congrArg Prod.snd hclose, hclosed, hempty⟩

end MetricStream
