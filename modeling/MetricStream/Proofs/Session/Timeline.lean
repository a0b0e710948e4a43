/-
The submissions of a session, told from its commands.

Where nothing is refused, the commands tell what is submitted and when it was
written. Each command stands after the pauses before it (`timeline`), the
flushes cut the commands into segments, and each segment with a write in it is
one submission: the entries of its writes, stamped with the whole seconds of
the pauses before them (`session_by_timeline`).
-/
import Mathlib.Algebra.Order.Ring.Nat
import MetricStream.Proofs.Session.Unrefused

namespace MetricStream

open SeriesClient (client)

/-! ## The reference -/

/-- A command, and the nanoseconds that were paused for before it. -/
structure Step where
  paused : Nat
  command : Command

/-- The nanoseconds that a command takes. -/
def Command.nanos : Command → Nat
  | .sleep duration => duration.nanos
  | _ => 0

/-- The commands, each after the pauses of those before it and `paused` more. -/
def timeline (paused : Nat) : List Command → List Step
  | [] => []
  | c :: commands => ⟨paused, c⟩ :: timeline (paused + c.nanos) commands

/-- The second that a step is in, where the first is in second `T`. -/
def Step.second (T : Int) (s : Step) : Int := T + (s.paused / 1000000000 : Nat)

/-- The write that a step asks for, if it asks for one. -/
def Step.write? (T : Int) (tags : List String) (s : Step) : Option Write :=
  match s.command with
  | .gauge metric value => some ⟨⟨.gauge, metric, tags⟩, value, s.second T⟩
  | .count metric value => some ⟨⟨.count, metric, tags⟩, value, s.second T⟩
  | .incr metric => some ⟨⟨.count, metric, tags⟩, .unit, s.second T⟩
  | .decr metric => some ⟨⟨.count, metric, tags⟩, -.unit, s.second T⟩
  | .sleep _ => none
  | .flush => none

/-- The steps between flushes. -/
def segments (steps : List Step) : List (List Step) := steps.splitOnP (·.command = .flush)

/-- The writes between flushes, where there are any. -/
def windows (T : Int) (tags : List String) (commands : List Command) : List (List Write) :=
  ((segments (timeline 0 commands)).map (·.filterMap (Step.write? T tags))).filter (· ≠ [])

/-! ## The calls of a timeline -/

namespace Instant

theorem after_zero (now : Instant) : now.after ⟨0⟩ = now := by
  simp only [after, Int.natCast_zero, Int.add_zero]

theorem after_after (now : Instant) (d e : Duration) :
    (now.after d).after e = now.after ⟨d.nanos + e.nanos⟩ := by
  simp only [after, Int.natCast_add, Int.add_assoc]

/-- A pause after a whole second counts in its own whole seconds. -/
theorem seconds_after (T : Int) (d : Duration) :
    ((ofSeconds T).after d).seconds = T + (d.nanos / 1000000000 : Nat) := by
  rw [seconds, Int.fdiv_eq_ediv_of_nonneg _ (by decide)]
  simp only [after, ofSeconds]
  omega

end Instant

/-- The call that a step makes, if it makes one. -/
def Step.turn? (T : Int) (tags : List String) (s : Step) : Option Turn :=
  (s.command.call? tags).map (⟨(Instant.ofSeconds T).after ⟨s.paused⟩, ·⟩)

theorem Step.cases (T : Int) (tags : List String) (s : Step) :
    (s.command = .flush ∧ s.write? T tags = none ∧ ∃ now, s.turn? T tags = some ⟨now, .flush⟩) ∨
      (s.command ≠ .flush ∧ s.write? T tags = none ∧ s.turn? T tags = none) ∨
      ∃ t w, s.command ≠ .flush ∧ s.write? T tags = some w ∧ s.turn? T tags = some t ∧
        t.write? = some w := by
  obtain ⟨paused, c⟩ := s
  cases c with
  | flush => exact .inl ⟨rfl, rfl, _, rfl⟩
  | sleep d => exact .inr (.inl ⟨Command.noConfusion, rfl, rfl⟩)
  | gauge | count | incr | decr =>
    refine .inr (.inr ⟨_, _, Command.noConfusion, rfl, rfl, ?_⟩)
    simp only [Turn.write?, Instant.seconds_after, second]

/-- The calls of commands carried out one after the other are those of their
timeline. -/
theorem turnsOf_traceOf (T : Int) (tags : List String) (commands : List Command) (paused : Nat) :
    turnsOf ((Instant.ofSeconds T).after ⟨paused⟩) (traceOf tags commands) =
      (timeline paused commands).filterMap (Step.turn? T tags) := by
  induction commands generalizing paused with
  | nil => rfl
  | cons c commands ih =>
    rw [traceOf_cons, timeline]
    rcases hd : c.deed tags with call | d
    · have hturn : (⟨paused, c⟩ : Step).turn? T tags =
          some ⟨(Instant.ofSeconds T).after ⟨paused⟩, call⟩ := by
        rw [Step.turn?, Command.call?_ask hd]
        rfl
      have hnanos : c.nanos = 0 := by cases c <;> first | rfl | cases hd
      rw [Command.occurrences_ask hd, List.filterMap_cons_some hturn, hnanos]
      exact congrArg (_ :: ·) (ih paused)
    · have hturn : (⟨paused, c⟩ : Step).turn? T tags = none := by
        rw [Step.turn?, Command.call?_pause hd]
        rfl
      have hnanos : c.nanos = d.nanos := by
        cases c <;> cases hd
        rfl
      rw [Command.occurrences_pause hd, List.filterMap_cons_none hturn, hnanos, ← ih]
      exact congrArg (turnsOf · _) (Instant.after_after _ _ _)

/-! ## The windows of a timeline -/

theorem segments_cons (s : Step) (steps : List Step) :
    segments (s :: steps) =
      if s.command = .flush then [] :: segments steps else (segments steps).modifyHead (s :: ·) := by
  simp only [segments, List.splitOnP_cons_eq_if_modifyHead, decide_eq_true_eq]

theorem exists_segments (steps : List Step) : ∃ head tail, segments steps = head :: tail :=
  List.exists_cons_of_ne_nil (List.splitOnP_ne_nil _ steps)

namespace Ledger

theorem submitted_submit (l : Ledger) :
    l.submit.submitted = l.submitted ++ [l.window].filter (· ≠ []) := by
  by_cases h : l.window = []
  · rw [submit_empty h]
    simp [h]
  · rw [submit_window h]
    simp [h]

/-- **The windows of a timeline** all of whose calls are accepted are the writes
of its segments. The first segment is added to the window that is open. -/
theorem submitted_of_steps (T : Int) (tags : List String) (steps : List Step) {l : Ledger}
    (hl : l.closed = false) :
    (((steps.filterMap (Step.turn? T tags)).map (Exchange.mk · (.ok ()))).foldl enter l).submit.submitted =
      l.submitted ++ (((segments steps).map (·.filterMap (Step.write? T tags))).modifyHead
        (l.window ++ ·)).filter (· ≠ []) := by
  induction steps generalizing l with
  | nil =>
    rw [submitted_submit]
    simp [segments]
  | cons s steps ih =>
    obtain ⟨head, tail, hsegments⟩ := exists_segments steps
    rw [segments_cons]
    rcases s.cases T tags with ⟨hc, hw, now, ht⟩ | ⟨hc, hw, ht⟩ | ⟨t, w, hc, hw, ht, htw⟩
    · -- The window ends here, and the next one begins empty.
      rw [List.filterMap_cons_some ht, List.map_cons, List.foldl_cons,
        enter_open hl (by simp [Turn.write?]), if_pos hc]
      have hrest := ih (l := { l.submit with closed := decide (Call.flush = .close) }) rfl
      rw [hrest, submitted_submit, window_submit, List.append_assoc, ← List.filter_append, hsegments]
      simp only [List.map_cons, List.modifyHead_cons, List.filterMap_nil, List.append_nil,
        List.nil_append, List.singleton_append]
    · rw [List.filterMap_cons_none ht, if_neg hc, ih hl, hsegments]
      simp [hw]
    · rw [List.filterMap_cons_some ht, List.map_cons, List.foldl_cons, enter_accepted htw rfl,
        if_neg hc, ih (l := { l with window := l.window ++ [w] }) hl, hsegments]
      simp [hw]

end Ledger

/-! ## The entries of a segment -/

theorem Step.key_of_write? {T : Int} {tags : List String} {s : Step} {w : Write}
    (h : s.write? T tags = some w) : w.key.tags = tags ∧ w.second = s.second T := by
  unfold write? at h
  split at h <;> cases h <;> exact ⟨rfl, rfl⟩

/-- What an entry of a segment tells: for a gauge, the last write to it and its
second; for a counter, the sum of the writes to it and the second of the first. -/
structure Summarizes (T : Int) (tags : List String) (segment : List Step) (p : Point) : Prop where
  tags_eq : p.key.tags = tags
  gauge : p.key.kind = .gauge → ∃ before step after w, segment = before ++ step :: after ∧
    step.write? T tags = some w ∧ w.key = p.key ∧
    (∀ later ∈ after, ∀ v, later.write? T tags = some v → v.key ≠ p.key) ∧
    p.value = w.value ∧ p.second = step.second T
  count : p.key.kind = .count → ∃ before step after w, segment = before ++ step :: after ∧
    step.write? T tags = some w ∧ w.key = p.key ∧
    (∀ earlier ∈ before, ∀ v, earlier.write? T tags = some v → v.key ≠ p.key) ∧
    p.value = (writesTo p.key (after.filterMap (Step.write? T tags))).foldl
      (fun sum v => sum + v.value) w.value ∧
    p.second = step.second T

theorem exists_step {T : Int} {tags : List String} {segment : List Step} {before after : List Write}
    {w : Write} (h : segment.filterMap (Step.write? T tags) = before ++ w :: after) :
    ∃ earlier step later, segment = earlier ++ step :: later ∧ step.write? T tags = some w ∧
      earlier.filterMap (Step.write? T tags) = before ∧
      later.filterMap (Step.write? T tags) = after := by
  obtain ⟨first, rest, rfl, hfirst, hrest⟩ := List.filterMap_eq_append_iff.1 h
  obtain ⟨idle, step, later, rfl, hidle, hstep, hlater⟩ := List.filterMap_eq_cons_iff.1 hrest
  refine ⟨first ++ idle, step, later, (List.append_assoc _ _ _).symm, hstep, ?_, hlater⟩
  rw [List.filterMap_append, hfirst, List.filterMap_eq_nil_iff.2 hidle, List.append_nil]

theorem summarizes_of_mem {T : Int} {tags : List String} {segment : List Step} {p : Point}
    (hp : p ∈ entries (segment.filterMap (Step.write? T tags))) : Summarizes T tags segment p := by
  refine ⟨?_, fun hk => ?_, fun hk => ?_⟩
  · obtain ⟨w, hw, hkey⟩ := write_of_entry hp
    obtain ⟨step, -, hstep⟩ := List.mem_filterMap.1 hw
    rw [← hkey]
    exact (Step.key_of_write? hstep).1
  · obtain ⟨before, w, after, hsplit, hkey, hother, hvalue, hsecond⟩ := gauge_entry hp hk
    obtain ⟨earlier, step, later, rfl, hstep, -, rfl⟩ := exists_step hsplit
    refine ⟨earlier, step, later, w, rfl, hstep, hkey, fun s hs v hv => ?_, hvalue, ?_⟩
    · exact hother v (List.mem_filterMap.2 ⟨s, hs, hv⟩)
    · rw [hsecond, (Step.key_of_write? hstep).2]
  · obtain ⟨before, w, after, hsplit, hkey, hother, hvalue, hsecond⟩ := count_entry hp hk
    obtain ⟨earlier, step, later, rfl, hstep, rfl, rfl⟩ := exists_step hsplit
    refine ⟨earlier, step, later, w, rfl, hstep, hkey, fun s hs v hv => ?_, hvalue, ?_⟩
    · exact hother v (List.mem_filterMap.2 ⟨s, hs, hv⟩)
    · rw [hsecond, (Step.key_of_write? hstep).2]

/-! ## The session -/

/-- A step of a timeline is a command of it, after all pauses before. -/
theorem step_of_timeline {commands : List Command} {paused i : Nat} {step : Step}
    (h : (timeline paused commands)[i]? = some step) :
    commands[i]? = some step.command ∧
      step.paused = paused + ((commands.take i).map Command.nanos).sum := by
  induction commands generalizing paused i with
  | nil => cases h
  | cons c commands ih =>
    cases i with
    | zero =>
      obtain rfl := Option.some.inj h
      exact ⟨rfl, rfl⟩
    | succ i =>
      obtain ⟨hcommand, hpaused⟩ := ih h
      exact ⟨hcommand, by rw [hpaused, List.take_succ_cons, List.map_cons, List.sum_cons, Nat.add_assoc]⟩

theorem readPause_negative {typed : String} {rest : List Char} (h : typed.toList = '-' :: rest)
    {d : Duration} (hd : readPause typed = .ok d) : d = .zero := by
  unfold readPause Duration.read at hd
  simp only [h, Text.takeSign, if_true] at hd
  split at hd
  · cases hd
  · next d' hread =>
    obtain rfl := Except.ok.inj hd
    split at hread
    · exact (Except.ok.inj hread).symm
    split at hread
    · split at hread
      · cases hread
      · exact (Except.ok.inj hread).symm
    · cases hread

/-- The windows of a session all of whose submissions are accepted. -/
theorem submitted_of_session {ctx : Context} {tokens : List String} {T : Int} {s : SeriesClient}
    (hopen : s.closed = false)
    (haccepted : ∀ a ∈ SeriesClient.attempts
      (turnsOf (.ofSeconds T) (execute ctx client tokens ⟨s, .ofSeconds T⟩).trace) s,
      a.reply.isAccepted = true) :
    (Ledger.of (client.exchanges
        (turnsOf (.ofSeconds T) (execute ctx client tokens ⟨s, .ofSeconds T⟩).trace) s)).submitted =
      windows T ctx.tags (legible ctx (cut tokens).1) := by
  have hall := (session_accepted_iff (w := ⟨s, .ofSeconds T⟩) hopen).2 haccepted
  have hclose := safe_of_interpret ctx client tokens ⟨s, .ofSeconds T⟩
  rw [client.exchanges_accepted hall]
  rw [turnsOf_execute] at hall ⊢
  rw [client.exchanges_append, List.forall_mem_append] at hall
  obtain ⟨-, htrace⟩ := interpret_unrefused hall.1
  have hsteps : turnsOf (.ofSeconds T) (interpret ctx client tokens ⟨s, .ofSeconds T⟩).trace =
      (timeline 0 (legible ctx (cut tokens).1)).filterMap (Step.turn? T ctx.tags) := by
    rw [← turnsOf_traceOf, htrace, Instant.after_zero]
  -- The close ends the last window, and no call before it is a close.
  have hopened : ((((timeline 0 (legible ctx (cut tokens).1)).filterMap (Step.turn? T ctx.tags)).map
      (Exchange.mk · (.ok ()))).foldl Ledger.enter Ledger.start).closed = false := by
    rw [← Bool.not_eq_true, Ledger.closed_foldl, ← hsteps]
    rintro (hstart | ⟨x, hx, hcall⟩)
    · cases hstart
    · obtain ⟨t, ht, rfl⟩ := List.mem_map.1 hx
      exact (hclose t ht).1 hcall
  have hid : (([] : List Write) ++ ·) = id := funext List.nil_append
  rw [hsteps, Ledger.of, List.map_append, List.foldl_append, List.map_singleton, List.foldl_cons,
    List.foldl_nil, Ledger.enter_open hopened (by simp [Turn.write?])]
  have hsubmitted := Ledger.submitted_of_steps T ctx.tags
    (timeline 0 (legible ctx (cut tokens).1)) (l := .start) rfl
  rw [hsubmitted, Ledger.start, hid, List.modifyHead_id]
  rfl

/-- **A session's submissions, told from its commands.** In a session of a new
client that starts in second `T`, and all of whose submissions are accepted, the
commands up to the first that cannot be read are carried out, each after the
pauses of those before it. The backend receives one request for each segment
between flushes that has a write, in order, in whose body the entries of its
writes are read, all of this host: a gauge's with the second of the last write to
it, a counter's with the second of the first, all with the run's tags. A negative
pause takes no time. -/
theorem session_by_timeline {host : String} {key : ApiKey} {options : DeliveryOptions}
    {backend : Delivery.Backend} {s : SeriesClient}
    (hnew : SeriesClient.create host key options backend = .ok s) (ctx : Context)
    (tokens : List String) (T : Int)
    (haccepted : ∀ a ∈ SeriesClient.attempts
      (turnsOf (.ofSeconds T) (execute ctx client tokens ⟨s, .ofSeconds T⟩).trace) s,
      a.reply.isAccepted = true) :
    let o := execute ctx client tokens ⟨s, .ofSeconds T⟩
    let commands := legible ctx (cut tokens).1
    (∃ requests, o.world.client.backend.received = backend.received ++ requests ∧
      List.Forall₂ (fun window (r : Delivery.Request) => ∃ url,
          Delivery.Url.TakesSeries backend.plainName options.apiUrl url ∧
          r.Submits url key host (entries window))
        (windows T ctx.tags commands) requests) ∧
    o.events = commands.map Command.event ∧
    (∀ i step, (timeline 0 commands)[i]? = some step → commands[i]? = some step.command ∧
      step.paused = ((commands.take i).map Command.nanos).sum) ∧
    (∀ segment ∈ segments (timeline 0 commands),
      ∀ p ∈ entries (segment.filterMap (Step.write? T ctx.tags)), Summarizes T ctx.tags segment p) ∧
    ∀ typed rest d, typed.toList = '-' :: rest → readPause typed = .ok d →
      (Command.sleep d).nanos = 0 := by
  intro o commands
  obtain ⟨hp, hopen⟩ := SeriesClient.create_fresh hnew
  have hall := (session_accepted_iff (w := ⟨s, .ofSeconds T⟩) hopen).2 haccepted
  refine ⟨?_, ?_, fun i step h => ?_, fun segment _ p hp => summarizes_of_mem hp,
    fun typed rest d h hd => ?_⟩
  · have hpoints := Ledger.points_attempts hp hopen (turnsOf (.ofSeconds T) o.trace)
    rw [submitted_of_session hopen haccepted] at hpoints
    obtain ⟨requests, hreceived, hrequests⟩ := received_of_session hnew haccepted
    rw [hpoints] at hrequests
    exact ⟨requests, hreceived, List.forall₂_map_left_iff.1 hrequests⟩
  · obtain ⟨-, htrace⟩ := execute_unrefused hall
    rw [Outcome.events, htrace, List.filterMap_append, events_traceOf]
    exact List.append_nil _
  · obtain ⟨hcommand, hpaused⟩ := step_of_timeline h
    exact ⟨hcommand, hpaused.trans (Nat.zero_add _)⟩
  · rw [readPause_negative h hd]
    rfl

/-- Two segments, the second ended by a token that is no command. Pauses of less
than a second add up, and a negative one does not count. -/
theorem session_by_timeline_fractions :
    let options : DeliveryOptions := ⟨"http://127.0.0.1:47125", .ofMillis 5000⟩
    let backend : Delivery.Backend := .plain "127.0.0.1" 47125 fun _ => .answered 202 []
    let ctx : Context := ⟨.ofText "app", ["env:test"]⟩
    let tokens := ["gauge", "load", "1", "c", "hits", "3", "sleep", "700ms", "sleep", "-5s",
      "sleep", ".6s", "incr", "hits", "gauge", "load", "2", "flush", "sleep", "800ms", "decr", "hits",
      "stop"]
    ∃ s : SeriesClient, SeriesClient.create "web-01" ⟨"secret"⟩ options backend = .ok s ∧
      let o := execute ctx client tokens ⟨s, .ofSeconds 10⟩
      (∀ a ∈ SeriesClient.attempts (turnsOf (.ofSeconds 10) o.trace) s, a.reply.isAccepted = true) ∧
      ∃ first second : Delivery.Request, o.world.client.backend.received = [first, second] ∧
        (∀ r ∈ [first, second], r.method = "POST" ∧ r.target = "/api/v1/series" ∧
          r.header? "DD-API-KEY" = some "secret") ∧
        Submission.Carries "web-01" [⟨⟨.gauge, "app.load", ["env:test"]⟩, .ofNat 2, 11⟩,
          ⟨⟨.count, "app.hits", ["env:test"]⟩, .ofNat 4, 10⟩] first.body ∧
        Submission.Carries "web-01" [⟨⟨.count, "app.hits", ["env:test"]⟩, -.unit, 12⟩] second.body := by
  intro options backend ctx tokens
  have hnew : SeriesClient.create "web-01" ⟨"secret"⟩ options backend =
      .ok (.fresh "web-01" options backend ⟨"secret"⟩) :=
    SeriesClient.create_nonblank _ _ _ (by decide)
  refine ⟨_, hnew, ?_⟩
  intro o
  have haccepted := SeriesClient.accepted_of_backend
    (s := .fresh "web-01" options backend ⟨"secret"⟩)
    (by decide) (by decide +kernel) (fun _ => rfl) (turnsOf (.ofSeconds 10) o.trace)
  obtain ⟨⟨requests, hreceived, hrequests⟩, -⟩ := session_by_timeline hnew ctx tokens 10 haccepted
  have hentries : (windows 10 ctx.tags (legible ctx (cut tokens).1)).map entries =
      [[⟨⟨.gauge, "app.load", ["env:test"]⟩, .ofNat 2, 11⟩,
          ⟨⟨.count, "app.hits", ["env:test"]⟩, .ofNat 4, 10⟩],
        [⟨⟨.count, "app.hits", ["env:test"]⟩, -.unit, 12⟩]] := by decide +kernel
  have hurl : Delivery.Url.read? backend.plainName (SeriesClient.seriesAddress options.apiUrl) =
      some ⟨false, "127.0.0.1", 47125, "/api/v1/series", none⟩ := by decide +kernel
  have hsubmits : List.Forall₂ (fun points (r : Delivery.Request) =>
      r.Submits ⟨false, "127.0.0.1", 47125, "/api/v1/series", none⟩ ⟨"secret"⟩ "web-01" points)
      ((windows 10 ctx.tags (legible ctx (cut tokens).1)).map entries) requests := by
    refine List.forall₂_map_left_iff.2 (hrequests.imp fun window r ⟨url, hseries, hr⟩ => ?_)
    obtain rfl := Option.some.inj (hseries.resolves.symm.trans hurl)
    exact hr
  rw [hentries] at hsubmits
  obtain ⟨first, rest, hfirst, hrest, rfl⟩ := List.forall₂_cons_left_iff.1 hsubmits
  obtain ⟨second, none, hsecond, hnone, rfl⟩ := List.forall₂_cons_left_iff.1 hrest
  obtain rfl := List.forall₂_nil_left_iff.1 hnone
  refine ⟨haccepted, first, second, hreceived, ?_, hfirst.carries, hsecond.carries⟩
  simp only [List.forall_mem_cons]
  exact ⟨⟨hfirst.method, hfirst.target, hfirst.key⟩,
    ⟨hsecond.method, hsecond.target, hsecond.key⟩, nofun⟩

end MetricStream
