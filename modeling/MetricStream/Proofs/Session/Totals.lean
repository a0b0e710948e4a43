/-
What the submissions of a session come to in all.

A flush ends a window and loses nothing: the windows, one after the other, are
the writes. So the sums that are submitted of a counter add up to the sum of
what was added to it, as long as nothing on the way is rounded, and the last
value that is submitted of a gauge is the last that was written to it. Where the
flushes and the pauses stand makes no difference (`totals_ignore_flushes`).
-/
import MetricStream.Proofs.Binary64.Integer
import MetricStream.Proofs.Session.Unrefused

namespace MetricStream

open SeriesClient (client)

/-- The tokens are commands to the last one, and these are they. -/
def Spells (ctx : Context) (tokens : List String) (commands : List Command) : Prop :=
  ∃ phrases, Cut tokens phrases [] ∧ phrases.map (Phrase.command ctx) = commands.map .ok

/-- The value that a command writes to a metric of a kind, if it writes to it. -/
def Command.value? (kind : MetricKind) (metric : String) : Command → Option Binary64
  | .gauge name value => if kind = .gauge ∧ name = metric then some value else none
  | .count name value => if kind = .count ∧ name = metric then some value else none
  | .incr name => if kind = .count ∧ name = metric then some .unit else none
  | .decr name => if kind = .count ∧ name = metric then some (-.unit) else none
  | .sleep _ => none
  | .flush => none

/-- The values that commands write to a metric of a kind, in order. -/
def valuesWritten (kind : MetricKind) (metric : String) (commands : List Command) : List Binary64 :=
  commands.filterMap (Command.value? kind metric)

/-- The values that are submitted of a metric of a kind, in order. -/
def valuesSubmitted (kind : MetricKind) (metric : String) (attempts : List Attempt) :
    List Binary64 :=
  attempts.flatMap fun a =>
    (a.points.filter fun p => p.key.kind = kind ∧ p.key.metric = metric).map (·.value)

theorem spells_iff {ctx : Context} {tokens : List String} {commands : List Command} :
    Spells ctx tokens commands ↔
      (cut tokens).2 = [] ∧ (cut tokens).1.map (Phrase.command ctx) = commands.map .ok := by
  constructor
  · rintro ⟨phrases, hcut, hcommands⟩
    rw [hcut.eq]
    exact ⟨rfl, hcommands⟩
  · rintro ⟨hrest, hcommands⟩
    exact ⟨(cut tokens).1, hrest ▸ cut_spec tokens, hcommands⟩

instance (ctx : Context) (tokens : List String) (commands : List Command) :
    Decidable (Spells ctx tokens commands) := decidable_of_iff _ spells_iff.symm

theorem Spells.legible {ctx : Context} {tokens : List String} {commands : List Command}
    (h : Spells ctx tokens commands) : legible ctx (cut tokens).1 = commands := by
  have hcommands := (spells_iff.1 h).2
  clear h
  generalize (cut tokens).1 = phrases at hcommands ⊢
  induction phrases generalizing commands with
  | nil => exact (List.map_eq_nil_iff.1 hcommands.symm).symm
  | cons p phrases ih =>
    obtain ⟨c, rest, rfl, hc, hrest⟩ := List.map_eq_cons_iff.1 hcommands.symm
    rw [legible_command phrases hc.symm]
    exact congrArg (c :: ·) (ih hrest.symm)

theorem valuesWritten_isMetric (kind : MetricKind) (metric : String) (commands : List Command) :
    valuesWritten kind metric (commands.filter Command.isMetric) =
      valuesWritten kind metric commands := by
  rw [valuesWritten, List.filterMap_filter]
  refine List.filterMap_congr fun c _ => ?_
  cases c <;> rfl

/-! ## Windows, one after the other -/

/-- The entries that windows leave of one series, one window after the other. -/
def entriesTo (k : SeriesKey) (windows : List (List Write)) : List Point :=
  windows.flatMap fun window => (summary? k (writesTo k window)).toList

theorem last_entriesTo {k : SeriesKey} (hk : k.kind = .gauge) (windows : List (List Write)) :
    ((entriesTo k windows).map (·.value)).getLast? =
      ((writesTo k windows.flatten).map (·.value)).getLast? := by
  induction windows with
  | nil => rfl
  | cons window windows ih =>
    have hfirst : ((summary? k (writesTo k window)).toList.map (·.value)).getLast? =
        ((writesTo k window).map (·.value)).getLast? := by
      rcases writesTo k window with _ | ⟨w, ws⟩
      · rfl
      · simp [summary?, hk, List.getLast?_cons, List.getLastD_eq_getLast?]
    rw [List.flatten_cons, writesTo_append, List.map_append, List.getLast?_append, ← ih, ← hfirst,
      ← List.getLast?_append, ← List.map_append]
    rfl

theorem total_summary? {k : SeriesKey} (hk : k.kind = .count) {ws : List Write}
    (h : Binary64.SmallIntegers (ws.map (·.value))) :
    (∀ x ∈ (summary? k ws).toList.map (·.value), x.IsInteger) ∧
      Binary64.total ((summary? k ws).toList.map (·.value)) =
        Binary64.total (ws.map (·.value)) := by
  rcases ws with _ | ⟨w, ws⟩
  · exact ⟨List.forall_mem_nil _, rfl⟩
  obtain ⟨hinteger, hunits⟩ := Binary64.SmallIntegers.foldl h
  rw [List.foldl_map] at hinteger hunits
  simp only [summary?, hk, Option.toList_some, List.map_singleton, List.forall_mem_singleton]
  exact ⟨hinteger, (Int.add_zero _).trans hunits⟩

/-- **A counter's entries** add up to the exact sum of small integers, however
these are divided into windows. -/
theorem total_entriesTo {k : SeriesKey} (hk : k.kind = .count) {windows : List (List Write)}
    (h : Binary64.SmallIntegers ((writesTo k windows.flatten).map (·.value))) :
    (∀ x ∈ (entriesTo k windows).map (·.value), x.IsInteger) ∧
      Binary64.total ((entriesTo k windows).map (·.value)) =
        Binary64.total ((writesTo k windows.flatten).map (·.value)) := by
  induction windows with
  | nil => exact ⟨List.forall_mem_nil _, rfl⟩
  | cons window windows ih =>
    rw [List.flatten_cons, writesTo_append, List.map_append] at h ⊢
    obtain ⟨hinteger, htotal⟩ := total_summary? hk h.of_append.1
    obtain ⟨hintegers, htotals⟩ := ih h.of_append.2
    rw [entriesTo, List.flatMap_cons, List.map_append, List.forall_mem_append,
      Binary64.total_append, Binary64.total_append, htotal]
    exact ⟨⟨hinteger, hintegers⟩, congrArg _ htotals⟩

/-! ## The writes of commands -/

/-- What one command writes: its value, to the series of its metric, if it is no
flush and no pause. -/
theorem writes_command (kind : MetricKind) (metric : String) (tags : List String) (c : Command)
    (now : Instant) :
    (∀ w ∈ (turnsOf now (c.occurrences tags)).filterMap Turn.write?, w.key.tags = tags) ∧
      (writesTo ⟨kind, metric, tags⟩
          ((turnsOf now (c.occurrences tags)).filterMap Turn.write?)).map (·.value) =
        (c.value? kind metric).toList := by
  cases c with
  | sleep | flush => exact ⟨List.forall_mem_nil _, rfl⟩
  | gauge name value | count name value | incr name | decr name =>
    refine ⟨List.forall_mem_singleton.2 rfl, ?_⟩
    simp only [Command.occurrences, Command.deed, turnsOf, Turn.write?, List.filterMap_cons,
      List.filterMap_nil, writesTo, List.filter_singleton, SeriesKey.mk.injEq, and_true,
      Command.value?, eq_comm (a := kind), Bool.cond_decide]
    split <;> simp only [List.map_cons, List.map_nil, Option.toList_some, Option.toList_none]

theorem writes_traceOf (kind : MetricKind) (metric : String) (tags : List String)
    (commands : List Command) (now : Instant) :
    (∀ w ∈ (turnsOf now (traceOf tags commands)).filterMap Turn.write?, w.key.tags = tags) ∧
      (writesTo ⟨kind, metric, tags⟩
          ((turnsOf now (traceOf tags commands)).filterMap Turn.write?)).map (·.value) =
        valuesWritten kind metric commands := by
  induction commands generalizing now with
  | nil => exact ⟨List.forall_mem_nil _, rfl⟩
  | cons c commands ih =>
    obtain ⟨htags, hvalues⟩ := writes_command kind metric tags c now
    obtain ⟨hrest, hvaluesRest⟩ := ih (timeAfter now (c.occurrences tags))
    rw [traceOf_cons, turnsOf_append, List.filterMap_append, List.forall_mem_append,
      writesTo_append, List.map_append, hvalues, hvaluesRest]
    refine ⟨⟨htags, hrest⟩, ?_⟩
    cases hc : c.value? kind metric <;> simp [valuesWritten, hc]

/-! ## The session -/

section

variable {ctx : Context} {tokens : List String} {s : SeriesClient} {now : Instant}
  (hp : s.pending = []) (hopen : s.closed = false)
  (haccepted : ∀ a ∈ SeriesClient.attempts
    (turnsOf now (execute ctx client tokens ⟨s, now⟩).trace) s, a.reply.isAccepted = true)
include hp hopen haccepted

/-- The windows of a session, one after the other, are the writes of its commands. -/
theorem writes_of_session :
    (Ledger.of (client.exchanges
        (turnsOf now (execute ctx client tokens ⟨s, now⟩).trace) s)).submitted.flatten =
      (turnsOf now (traceOf ctx.tags (legible ctx (cut tokens).1))).filterMap Turn.write? := by
  have hall : ∀ x ∈ client.exchanges (turnsOf now (execute ctx client tokens ⟨s, now⟩).trace) s,
      x.answer = .ok () := (session_accepted_iff (w := ⟨s, now⟩) hopen).2 haccepted
  obtain ⟨-, htrace⟩ := execute_unrefused (w := ⟨s, now⟩) hall
  rw [htrace, turnsOf_append] at hall ⊢
  generalize turnsOf now (traceOf ctx.tags (legible ctx (cut tokens).1)) = turns at hall ⊢
  generalize timeAfter now (traceOf ctx.tags (legible ctx (cut tokens).1)) = later at hall ⊢
  -- The close leaves no window open.
  have hclosed := (Ledger.closed_of (turns ++ turnsOf later [.called .close]) s).2
    ⟨_, List.mem_append_right _ (List.mem_singleton_self _), rfl⟩
  have hwrites := Ledger.writes_of (client.exchanges (turns ++ turnsOf later [.called .close]) s)
  rw [(Ledger.agrees_of hp hopen _).settled hclosed, List.append_nil] at hwrites
  rw [hwrites, client.exchanges_accepted hall, List.filterMap_map]
  show (turns ++ _).filterMap Turn.write? = _
  rw [List.filterMap_append]
  exact List.append_nil _

/-- What is submitted of a metric are the entries of its one series. -/
theorem valuesSubmitted_of_session (kind : MetricKind) (metric : String) :
    valuesSubmitted kind metric
        (SeriesClient.attempts (turnsOf now (execute ctx client tokens ⟨s, now⟩).trace) s) =
      (entriesTo ⟨kind, metric, ctx.tags⟩ (Ledger.of (client.exchanges
        (turnsOf now (execute ctx client tokens ⟨s, now⟩).trace) s)).submitted).map (·.value) := by
  have hwrites := writes_of_session hp hopen haccepted
  have hpoints := Ledger.points_attempts hp hopen
    (turnsOf now (execute ctx client tokens ⟨s, now⟩).trace)
  generalize (Ledger.of _).submitted = submitted at hwrites hpoints ⊢
  -- All writes have the tags of the run, so a kind and a name are a series.
  have hfilter : ∀ window ∈ submitted, (entries window).filter
      (fun p => p.key.kind = kind ∧ p.key.metric = metric) =
      (summary? ⟨kind, metric, ctx.tags⟩ (writesTo ⟨kind, metric, ctx.tags⟩ window)).toList := by
    intro window hwindow
    rw [← filter_entries]
    refine List.filter_congr fun p hpoint => ?_
    obtain ⟨w, hw, hkey⟩ := write_of_entry hpoint
    have htags : p.key.tags = ctx.tags := by
      rw [← hkey]
      refine (writes_traceOf kind metric ctx.tags (legible ctx (cut tokens).1) now).1 w ?_
      rw [← hwrites]
      exact List.mem_flatten.2 ⟨window, hwindow, hw⟩
    obtain ⟨⟨k, m, tags⟩, value, second⟩ := p
    obtain rfl : tags = ctx.tags := htags
    simp only [SeriesKey.mk.injEq, and_true]
  calc
    valuesSubmitted kind metric _ = ((SeriesClient.attempts _ s).map (·.points)).flatMap fun points =>
        (points.filter fun p => p.key.kind = kind ∧ p.key.metric = metric).map (·.value) := by
      rw [List.flatMap_map]
      rfl
    _ = submitted.flatMap fun window => ((entries window).filter
        fun p => p.key.kind = kind ∧ p.key.metric = metric).map (·.value) := by
      rw [hpoints, List.flatMap_map]
    _ = submitted.flatMap fun window => (summary? ⟨kind, metric, ctx.tags⟩
        (writesTo ⟨kind, metric, ctx.tags⟩ window)).toList.map (·.value) :=
      List.flatMap_congr fun window hwindow => congrArg _ (hfilter window hwindow)
    _ = (entriesTo ⟨kind, metric, ctx.tags⟩ submitted).map (·.value) :=
      List.map_flatMap.symm

theorem totals_of_session (metric : String) :
    let commands := legible ctx (cut tokens).1
    let sent := SeriesClient.attempts (turnsOf now (execute ctx client tokens ⟨s, now⟩).trace) s
    (Binary64.SmallIntegers (valuesWritten .count metric commands) →
      (∀ x ∈ valuesSubmitted .count metric sent, x.IsInteger) ∧
      Binary64.total (valuesSubmitted .count metric sent) =
        Binary64.total (valuesWritten .count metric commands)) ∧
    (valuesSubmitted .gauge metric sent).getLast? = (valuesWritten .gauge metric commands).getLast? := by
  intro commands sent
  have hwrites := writes_of_session hp hopen haccepted
  have hvalues (kind : MetricKind) :=
    (writes_traceOf kind metric ctx.tags (legible ctx (cut tokens).1) now).2
  have hsent (kind : MetricKind) := valuesSubmitted_of_session hp hopen haccepted kind metric
  simp only [← hwrites] at hvalues
  constructor
  · rw [hsent, ← hvalues]
    exact total_entriesTo rfl
  · rw [hsent, ← hvalues]
    exact last_entriesTo rfl _

end

/-- **Totals ignore flushes.** Two token lists spell the same writes of metrics
in the same order, with flushes and pauses wherever they may be. In a session of
either, of a new client all of whose submissions are accepted, the backend
receives the submissions that are made, their points to be read in them, and the
values of a counter in them add up to the exact sum of what the commands add to
it, if these are integers whose magnitudes come to `2 ^ 53` at most. The last
value of a gauge is the last that the commands set it to. -/
theorem totals_ignore_flushes {host : String} {key : ApiKey} {options : DeliveryOptions}
    {backend : Delivery.Backend} {s : SeriesClient}
    (hnew : SeriesClient.create host key options backend = .ok s) {ctx : Context}
    {xs ys : List String} {cs ds : List Command} (hxs : Spells ctx xs cs) (hys : Spells ctx ys ds)
    (hsame : cs.filter Command.isMetric = ds.filter Command.isMetric) (now : Instant)
    (haccepted : ∀ tokens ∈ [xs, ys], ∀ a ∈ SeriesClient.attempts
      (turnsOf now (execute ctx client tokens ⟨s, now⟩).trace) s, a.reply.isAccepted = true)
    (metric : String) :
    ∀ tokens ∈ [xs, ys],
      let o := execute ctx client tokens ⟨s, now⟩
      let sent := SeriesClient.attempts (turnsOf now o.trace) s
      (∃ requests, o.world.client.backend.received = backend.received ++ requests ∧
        List.Forall₂ (fun points (r : Delivery.Request) => ∃ url,
            Delivery.Url.TakesSeries backend.plainName options.apiUrl url ∧
            r.Submits url key host points)
          (sent.map (·.points)) requests) ∧
      (Binary64.SmallIntegers (valuesWritten .count metric cs) →
        (∀ x ∈ valuesSubmitted .count metric sent, x.IsInteger) ∧
        Binary64.total (valuesSubmitted .count metric sent) =
          Binary64.total (valuesWritten .count metric cs)) ∧
      (valuesSubmitted .gauge metric sent).getLast? = (valuesWritten .gauge metric cs).getLast? := by
  intro tokens htokens o sent
  obtain ⟨hp, hopen⟩ := SeriesClient.create_fresh hnew
  have hwritten (kind : MetricKind) :
      valuesWritten kind metric (legible ctx (cut tokens).1) = valuesWritten kind metric cs := by
    rcases List.mem_pair.1 htokens with rfl | rfl
    · rw [hxs.legible]
    · rw [hys.legible, ← valuesWritten_isMetric, ← hsame, valuesWritten_isMetric]
  have haccepted := haccepted tokens htokens
  obtain ⟨hcount, hgauge⟩ := totals_of_session hp hopen haccepted metric
  rw [hwritten] at hcount hgauge
  exact ⟨received_of_session hnew haccepted, hcount, hgauge⟩

/-- Integers of `2 ^ 53` in all, in one window and in three. -/
theorem totals_ignore_flushes_three_windows :
    let options : DeliveryOptions := ⟨"http://127.0.0.1:47125", .ofMillis 5000⟩
    let backend : Delivery.Backend := .plain "127.0.0.1" 47125 fun _ => .answered 202 []
    let ctx : Context := ⟨.ofText "app", ["env:test"]⟩
    let xs := ["c", "hits", "9007199254740990", "gauge", "load", "1", "incr", "hits", "gauge", "load",
      "2", "decr", "hits"]
    let ys := ["c", "hits", "9007199254740990", "flush", "gauge", "load", "1", "sleep", "1s", "incr",
      "hits", "flush", "flush", "gauge", "load", "2", "decr", "hits"]
    ∃ s : SeriesClient, SeriesClient.create "web-01" ⟨"secret"⟩ options backend = .ok s ∧
      ∀ tokens ∈ [xs, ys],
        let sent := SeriesClient.attempts
          (turnsOf (.ofSeconds 10) (execute ctx client tokens ⟨s, .ofSeconds 10⟩).trace) s
        (∀ a ∈ sent, a.reply.isAccepted = true) ∧
        Binary64.total (valuesSubmitted .count "app.hits" sent) = 9007199254740990 * Binary64.one ∧
        (valuesSubmitted .gauge "app.load" sent).getLast? = some (.ofNat 2) := by
  intro options backend ctx xs ys
  have hnew : SeriesClient.create "web-01" ⟨"secret"⟩ options backend =
      .ok (.fresh "web-01" options backend ⟨"secret"⟩) :=
    SeriesClient.create_nonblank _ _ _ (by decide)
  refine ⟨_, hnew, fun tokens htokens => ?_⟩
  intro sent
  have haccepted (turns : List Turn) := SeriesClient.accepted_of_backend
    (s := .fresh "web-01" options backend ⟨"secret"⟩)
    (by decide) (by decide +kernel) (fun _ => rfl) turns
  have hxs : Spells ctx xs [.count "app.hits" (.ofNat 9007199254740990), .gauge "app.load" (.ofNat 1),
      .incr "app.hits", .gauge "app.load" (.ofNat 2), .decr "app.hits"] := by
    decide +kernel
  have hys : Spells ctx ys [.count "app.hits" (.ofNat 9007199254740990), .flush,
      .gauge "app.load" (.ofNat 1), .sleep (.ofMillis 1000), .incr "app.hits", .flush, .flush,
      .gauge "app.load" (.ofNat 2), .decr "app.hits"] := by
    decide +kernel
  obtain ⟨-, hcount, -⟩ := totals_ignore_flushes hnew hxs hys (by decide +kernel) (.ofSeconds 10)
    (fun _ _ => haccepted _) "app.hits" tokens htokens
  obtain ⟨-, -, hgauge⟩ := totals_ignore_flushes hnew hxs hys (by decide +kernel) (.ofSeconds 10)
    (fun _ _ => haccepted _) "app.load" tokens htokens
  exact ⟨haccepted _, (hcount (by decide +kernel)).2.trans (by decide +kernel),
    hgauge.trans (by decide +kernel)⟩

/-- Of a counter that is given `2 ^ 53` and one more, the one is lost in one
window and kept in two. -/
theorem one_past_integers_is_lost :
    let options : DeliveryOptions := ⟨"http://127.0.0.1:47125", .ofMillis 5000⟩
    let s : SeriesClient := ⟨"web-01", ⟨"secret"⟩, SeriesClient.seriesAddress options.apiUrl, [], false,
      .plain "127.0.0.1" 47125 fun _ => .answered 202 []⟩
    let most : Binary64 := .ofNat 9007199254740992
    let xs := ["count", "x", "9007199254740992", "incr", "x"]
    let ys := ["count", "x", "9007199254740992", "flush", "incr", "x"]
    let sent (tokens : List String) := SeriesClient.attempts
      (turnsOf (.ofSeconds 10) (execute .bare client tokens ⟨s, .ofSeconds 10⟩).trace) s
    SeriesClient.create "web-01" ⟨"secret"⟩ options s.backend = .ok s ∧
      Spells .bare xs [.count "x" most, .incr "x"] ∧
      Spells .bare ys [.count "x" most, .flush, .incr "x"] ∧
      [.count "x" most, .incr "x"].filter Command.isMetric =
        [.count "x" most, .flush, .incr "x"].filter Command.isMetric ∧
      (∀ tokens ∈ [xs, ys], ∀ a ∈ sent tokens, a.reply.isAccepted = true) ∧
      Binary64.SmallIntegers [most] ∧
      Binary64.total (valuesSubmitted .count "x" (sent xs)) = 9007199254740992 * Binary64.one ∧
      Binary64.total (valuesSubmitted .count "x" (sent ys)) = 9007199254740993 * Binary64.one ∧
      Binary64.total (valuesWritten .count "x" [.count "x" most, .incr "x"]) =
        9007199254740993 * Binary64.one := by
  intro options s most xs ys sent
  refine ⟨if_neg (by decide), ?_, ?_, rfl, ?_, ?_, ?_, ?_, ?_⟩ <;> decide +kernel

end MetricStream
