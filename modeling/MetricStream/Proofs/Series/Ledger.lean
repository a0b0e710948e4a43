/-
The buffering client, kept account of from outside.

A window is what the client has accepted since it last attempted a submission.
The ledger is drawn up from the calls and their answers alone: a write that was
accepted enters the window, and a flush of an open client or its close ends it.
The client agrees with its ledger at every moment (`Agrees.after`): its points
are the window's entries, and what it attempted to submit are the windows before.
-/
import MetricStream.Proofs.Series.Body
import MetricStream.Proofs.Series.Window

namespace MetricStream

open SeriesClient (client)

/-- What a client was given: the windows that were to be submitted, in order,
the writes since the last of them, and whether the client was closed. -/
structure Ledger where
  submitted : List (List Write)
  window : List Write
  closed : Bool

namespace Ledger

def start : Ledger := ⟨[], [], false⟩

/-- Ends the window. An empty one is not submitted. -/
def submit (l : Ledger) : Ledger :=
  if l.window = [] then l else { l with submitted := l.submitted ++ [l.window], window := [] }

/-- Enters a call as it went. -/
def enter (l : Ledger) (x : Exchange) : Ledger :=
  match x.turn.call with
  | .flush => if l.closed then l else l.submit
  | .close => if l.closed then l else { l.submit with closed := true }
  | _ => { l with window := l.window ++ x.accepted?.toList }

def of (xs : List Exchange) : Ledger := xs.foldl enter start

/-! ## Entering a call -/

section

variable {l : Ledger} {x : Exchange}

theorem enter_write {w : Write} (h : x.turn.write? = some w) :
    l.enter x = { l with window := l.window ++ x.accepted?.toList } := by
  unfold enter
  split
  · next hc => simp [Turn.write?, hc] at h
  · next hc => simp [Turn.write?, hc] at h
  · rfl

theorem enter_refused {w : Write} {e : ClientError} (h : x.turn.write? = some w)
    (ha : x.answer = .error e) : l.enter x = l := by
  rw [enter_write h, Exchange.accepted?, ha]
  simp

theorem enter_accepted {w : Write} (h : x.turn.write? = some w) (ha : x.answer = .ok ()) :
    l.enter x = { l with window := l.window ++ [w] } := by
  rw [enter_write h, Exchange.accepted?, ha]
  simp [h]

theorem enter_closed (hl : l.closed = true) (h : x.turn.write? = none) : l.enter x = l := by
  rcases Turn.write?_eq_none.1 h with hc | hc <;> simp [enter, hc, hl]

theorem enter_open (hl : l.closed = false) (h : x.turn.write? = none) :
    l.enter x = { l.submit with closed := decide (x.turn.call = .close) } := by
  have hs : l.submit = { l.submit with closed := false } := by
    unfold submit
    split <;> rw [← hl]
  rcases Turn.write?_eq_none.1 h with hc | hc
  · simpa [enter, hc, hl] using hs
  · simp [enter, hc, hl]

theorem submit_empty (h : l.window = []) : l.submit = l := if_pos h

theorem submit_window (h : l.window ≠ []) :
    l.submit = { l with submitted := l.submitted ++ [l.window], window := [] } := if_neg h

theorem window_submit (l : Ledger) : l.submit.window = [] := by
  unfold submit
  split
  · next h => exact h
  · rfl

theorem exists_submit (l : Ledger) :
    ∃ more, l.submit.submitted = l.submitted ++ more ∧
      more.flatten ++ l.submit.window = l.window := by
  by_cases h : l.window = []
  · rw [submit_empty h]
    exact ⟨[], by simp⟩
  · rw [submit_window h]
    exact ⟨[l.window], by simp⟩

end

/-! ## What a ledger keeps -/

/-- No accepted write is lost, repeated or moved: the windows that are submitted
from here on, and the one that is then open, are the window that is open now and
the accepted writes. -/
theorem exists_foldl (xs : List Exchange) (l : Ledger) :
    ∃ more, (xs.foldl enter l).submitted = l.submitted ++ more ∧
      more.flatten ++ (xs.foldl enter l).window = l.window ++ xs.filterMap Exchange.accepted? := by
  induction xs generalizing l with
  | nil => exact ⟨[], by simp⟩
  | cons x xs ih =>
    have hx : ∃ more, (l.enter x).submitted = l.submitted ++ more ∧
        more.flatten ++ (l.enter x).window = l.window ++ x.accepted?.toList := by
      cases hw : x.turn.write? with
      | some w => exact ⟨[], by simp [enter_write hw]⟩
      | none =>
        rw [Exchange.accepted?_eq_none hw]
        cases hc : l.closed with
        | true => exact ⟨[], by simp [enter_closed hc hw]⟩
        | false => simpa [enter_open hc hw] using exists_submit l
    obtain ⟨first, hs, hf⟩ := hx
    obtain ⟨more, hs', hf'⟩ := ih (l.enter x)
    refine ⟨first ++ more, by rw [List.foldl_cons, hs', hs, List.append_assoc], ?_⟩
    rw [List.foldl_cons, List.flatten_append, List.append_assoc, hf', ← List.append_assoc, hf]
    cases hx : x.accepted? <;> simp [hx]

/-- A window is submitted or open at last, with what was added to it. -/
theorem window_persists (xs : List Exchange) (l : Ledger) :
    ∃ more, l.window ++ more ∈ (xs.foldl enter l).submitted ++ [(xs.foldl enter l).window] := by
  induction xs generalizing l with
  | nil => exact ⟨[], by simp⟩
  | cons x xs ih =>
    rw [List.foldl_cons]
    cases hw : x.turn.write? with
    | some w =>
      obtain ⟨more, hm⟩ := ih (l.enter x)
      refine ⟨x.accepted?.toList ++ more, ?_⟩
      rw [enter_write hw, List.append_assoc] at hm
      rwa [enter_write hw]
    | none =>
      cases hc : l.closed with
      | true =>
        rw [enter_closed hc hw]
        exact ih l
      | false =>
        by_cases hnil : l.window = []
        · obtain ⟨more, hm⟩ := ih (l.enter x)
          rw [enter_open hc hw, submit_empty hnil] at hm ⊢
          exact ⟨more, hm⟩
        · -- The window is submitted here, and what is submitted stays so.
          obtain ⟨later, hs, -⟩ := exists_foldl xs (l.enter x)
          have hmem : l.window ∈ (l.enter x).submitted := by
            rw [enter_open hc hw, submit_window hnil]
            exact List.mem_append_right _ (List.mem_singleton_self _)
          refine ⟨[], List.mem_append_left _ ?_⟩
          rw [List.append_nil, hs]
          exact List.mem_append_left _ hmem

theorem closed_foldl (xs : List Exchange) (l : Ledger) :
    (xs.foldl enter l).closed = true ↔ l.closed = true ∨ ∃ x ∈ xs, x.turn.call = .close := by
  induction xs generalizing l with
  | nil => simp
  | cons x xs ih =>
    have hs : l.submit.closed = l.closed := by unfold submit; split <;> rfl
    have hx : (l.enter x).closed = true ↔ l.closed = true ∨ x.turn.call = .close := by
      unfold enter
      split <;> cases hl : l.closed <;> simp_all
    rw [List.foldl_cons, ih, hx]
    simp [or_assoc]

theorem writes_of (xs : List Exchange) :
    (of xs).submitted.flatten ++ (of xs).window = xs.filterMap Exchange.accepted? := by
  obtain ⟨more, hs, hw⟩ := exists_foldl xs start
  have hmore : (of xs).submitted = more := hs
  rw [hmore]
  exact hw

theorem closed_of (turns : List Turn) (s : SeriesClient) :
    (of (client.exchanges turns s)).closed = true ↔ ∃ t ∈ turns, t.call = .close := by
  conv_rhs => rw [← client.turns_exchanges turns s]
  exact (closed_foldl _ start).trans (by simp [start])

theorem of_append (early late : List Turn) (s : SeriesClient) :
    of (client.exchanges (early ++ late) s) =
      (client.exchanges late (client.after early s)).foldl enter (of (client.exchanges early s)) := by
  rw [client.exchanges_append, of, of, List.foldl_append]

theorem mem_window_of {turns : List Turn} {t : Turn} {w : Write} {s : SeriesClient}
    (hw : t.write? = some w)
    (ha : (client.answer t.now t.call (client.after turns s)).2 = .ok ()) :
    w ∈ (of (client.exchanges (turns ++ [t]) s)).window := by
  rw [of_append, Client.exchanges, List.foldl_cons, enter_accepted hw ha]
  exact List.mem_append_right _ (List.mem_singleton_self w)

/-! ## The client and its ledger -/

/-- The client is as the ledger tells: it buffers the window's entries, and it
is closed if the ledger is, with nothing left in the window. -/
structure Agrees (l : Ledger) (s : SeriesClient) : Prop where
  pending : s.pending = entries l.window
  closed : s.closed = l.closed
  settled : l.closed = true → l.window = []

theorem Agrees.start {s : SeriesClient} (hp : s.pending = []) (hc : s.closed = false) :
    start.Agrees s :=
  ⟨hp, hc, fun h => by cases h⟩

section

variable {l : Ledger} {s : SeriesClient} (h : l.Agrees s)
include h

theorem Agrees.pending_eq_nil : s.pending = [] ↔ l.window = [] := by
  rw [h.pending, entries_eq_nil]

/-- **One call.** The client and its ledger go together. -/
theorem Agrees.answer (t : Turn) :
    (l.enter ⟨t, (client.answer t.now t.call s).2⟩).Agrees (client.answer t.now t.call s).1 := by
  cases hw : t.write? with
  | some w =>
    have ha := SeriesClient.answer_write hw s
    split at ha
    · rw [ha, enter_refused hw rfl]
      exact h
    · next hopen =>
      split at ha
      · rw [ha, enter_accepted hw rfl]
        refine ⟨?_, h.closed, fun hc => absurd (h.closed.trans hc) hopen⟩
        show record w s.pending = entries (l.window ++ [w])
        rw [h.pending, record_entries]
      · rw [ha, enter_refused hw rfl]
        exact h
  | none =>
    cases hc : l.closed with
    | true =>
      rw [SeriesClient.answer_closed hw (h.closed.trans hc), enter_closed hc hw]
      exact h
    | false =>
      rw [SeriesClient.answer_open hw (h.closed.trans hc), enter_open hc hw]
      refine ⟨?_, rfl, fun _ => window_submit l⟩
      show s.submit.1.pending = entries l.submit.window
      rw [SeriesClient.submit_pending, window_submit]
      rfl

/-- A submission is attempted exactly when the ledger ends a window that is not
empty, and with the entries of this window. -/
theorem Agrees.attempt? (t : Turn) (answer : Except ClientError Unit) :
    (l.enter ⟨t, answer⟩).submitted.map entries =
      l.submitted.map entries ++ (s.attempt? t.call).toList.map (·.points) := by
  cases hw : t.write? with
  | some w =>
    rw [enter_write hw, SeriesClient.attempt?_write hw]
    simp
  | none =>
    cases hc : l.closed with
    | true =>
      rw [enter_closed hc hw, SeriesClient.attempt?_closed (h.closed.trans hc)]
      simp
    | false =>
      rw [enter_open hc hw]
      by_cases hp : l.window = []
      · rw [submit_empty hp, SeriesClient.attempt?_empty (h.pending_eq_nil.2 hp)]
        simp
      · rw [submit_window hp, SeriesClient.attempt?_points hw (h.closed.trans hc)
          (mt h.pending_eq_nil.1 hp)]
        simp [h.pending]

theorem Agrees.write {t : Turn} {w : Write} (hw : t.write? = some w) :
    client.answer t.now t.call s =
      if s.closed then (s, .error .closed)
      else if w.value.isFinite then ({ s with pending := entries (l.window ++ [w]) }, .ok ())
      else (s, .error (.nonFinite w.key.metric)) := by
  rw [SeriesClient.answer_write hw, h.pending, record_entries]

theorem Agrees.deliver {t : Turn} (ht : t.call = .flush ∨ t.call = .close) :
    if s.closed then
      s.attempt? t.call = none ∧
      client.answer t.now t.call s = (s, if t.call = .close then .ok () else .error .closed)
    else if l.window = [] then
      s.attempt? t.call = none ∧
      client.answer t.now t.call s = ({ s with closed := decide (t.call = .close) }, .ok ())
    else
      s.attempt? t.call = some ⟨entries l.window, (s.post (entries l.window)).2⟩ ∧
      client.answer t.now t.call s =
        ({ s with
            pending := []
            closed := decide (t.call = .close)
            backend := (s.post (entries l.window)).1 },
          SeriesClient.judge (s.post (entries l.window)).2) := by
  have hw := Turn.write?_eq_none.2 ht
  cases hc : s.closed with
  | true =>
    rw [if_pos rfl]
    exact ⟨SeriesClient.attempt?_closed hc _, SeriesClient.answer_closed hw hc⟩
  | false =>
    rw [if_neg Bool.false_ne_true, SeriesClient.answer_open hw hc]
    split
    · next hnil =>
      have hp := h.pending_eq_nil.2 hnil
      exact ⟨SeriesClient.attempt?_empty hp _, by rw [SeriesClient.submit_empty hp]⟩
    · next hnil =>
      have hp := mt h.pending_eq_nil.1 hnil
      rw [SeriesClient.attempt?_points hw hc hp, SeriesClient.submit_points hp, h.pending]
      exact ⟨rfl, rfl⟩

/-! ## Any number of calls -/

/-- **The client agrees with its ledger at every moment.** -/
theorem Agrees.after (turns : List Turn) :
    ((client.exchanges turns s).foldl enter l).Agrees (client.after turns s) := by
  induction turns generalizing l s with
  | nil => exact h
  | cons t turns ih => exact ih (h.answer t)

theorem Agrees.attempts (turns : List Turn) :
    ((client.exchanges turns s).foldl enter l).submitted.map entries =
      l.submitted.map entries ++ (SeriesClient.attempts turns s).map (·.points) := by
  induction turns generalizing l s with
  | nil => simp [Client.exchanges, SeriesClient.attempts]
  | cons t turns ih =>
    rw [Client.exchanges, List.foldl_cons, SeriesClient.attempts, ih (h.answer t), h.attempt? t,
      List.map_append, List.append_assoc]

end

/-! ## A new client -/

section

variable {s : SeriesClient} (hp : s.pending = []) (hc : s.closed = false)
include hp hc

theorem agrees_of (turns : List Turn) :
    (of (client.exchanges turns s)).Agrees (client.after turns s) :=
  (Agrees.start hp hc).after turns

theorem points_attempts (turns : List Turn) :
    (SeriesClient.attempts turns s).map (·.points) =
      (of (client.exchanges turns s)).submitted.map entries :=
  ((Agrees.start hp hc).attempts turns).symm

theorem submitted_later {early late : List Turn} {w : Write}
    (hw : w ∈ (of (client.exchanges early s)).window) (hclose : ∃ t ∈ late, t.call = .close) :
    ∃ window j, w ∈ window ∧ (of (client.exchanges early s)).submitted.length ≤ j ∧
      (of (client.exchanges (early ++ late) s)).submitted[j]? = some window := by
  obtain ⟨more, hsubmitted, hmore⟩ :=
    exists_foldl (client.exchanges late (client.after early s)) (of (client.exchanges early s))
  rw [← of_append] at hsubmitted hmore
  have hsettled : (of (client.exchanges (early ++ late) s)).window = [] := by
    refine (agrees_of hp hc (early ++ late)).settled ((closed_of _ s).2 ?_)
    obtain ⟨t, ht, hclose⟩ := hclose
    exact ⟨t, by simp [ht], hclose⟩
  have hmem : w ∈ more.flatten := by
    rw [hsettled, List.append_nil] at hmore
    rw [hmore]
    exact List.mem_append_left _ hw
  obtain ⟨window, hwindow, hw⟩ := List.mem_flatten.1 hmem
  obtain ⟨j, hj⟩ := List.mem_iff_getElem?.1 hwindow
  refine ⟨window, (of (client.exchanges early s)).submitted.length + j, hw, Nat.le_add_right _ j, ?_⟩
  rw [hsubmitted, List.getElem?_append_right (Nat.le_add_right _ j), Nat.add_sub_cancel_left, hj]

/-- What the backend received are the windows' entries, if anything gets through. -/
theorem backend_after (turns : List Turn) :
    (client.after turns s).backend =
      { s.backend with
        received := s.backend.received ++
          (of (client.exchanges turns s)).submitted.filterMap fun w => s.request? (entries w) } := by
  have hattempts := congrArg (List.filterMap s.request?) (points_attempts hp hc turns)
  rw [List.filterMap_map, List.filterMap_map] at hattempts
  obtain ⟨pending, closed, hs⟩ := SeriesClient.after_frame turns s
  rw [hs]
  exact congrArg (fun sent => { s.backend with received := s.backend.received ++ sent }) hattempts

end

/-- **A client is what its ledger says**, from its creation on and whatever its
calls and the replies to it. Its points are the entries of the window, one for
each series; the windows, one after the other, are the accepted writes; and
each window before was attempted once, in one submission. A write that is
accepted joins the window, and one that is refused does nothing. A flush and the
close of an open client submit the window, if it is not empty, and leave an empty
one, whatever the reply; a closed client does nothing. Where the backend listens
at the base address, each window before came in one request to the path of series
below it, whose body is read as the window's entries, and so does the next. -/
theorem client_by_ledger {host : String} {key : ApiKey} {options : DeliveryOptions}
    {backend : Delivery.Backend} {s₀ : SeriesClient}
    (hnew : SeriesClient.create host key options backend = .ok s₀)
    (hkey : Delivery.Backend.canCarry key.secret = true) (turns : List Turn) :
    let xs := client.exchanges turns s₀
    let s := client.after turns s₀
    let l := Ledger.of xs
    s.pending = entries l.window ∧ (s.pending.map (·.key)).Nodup ∧
    l.submitted.flatten ++ l.window = xs.filterMap Exchange.accepted? ∧
    (SeriesClient.attempts turns s₀).map (·.points) = l.submitted.map entries ∧
    (s.closed = true ↔ ∃ t ∈ turns, t.call = .close) ∧
    (∀ (t : Turn) (w : Write), t.write? = some w → client.answer t.now t.call s =
      if s.closed then (s, .error .closed)
      else if w.value.isFinite then ({ s with pending := entries (l.window ++ [w]) }, .ok ())
      else (s, .error (.nonFinite w.key.metric))) ∧
    (∀ t : Turn, t.call = .flush ∨ t.call = .close →
      if s.closed then
        s.attempt? t.call = none ∧
        client.answer t.now t.call s = (s, if t.call = .close then .ok () else .error .closed)
      else if l.window = [] then
        s.attempt? t.call = none ∧
        client.answer t.now t.call s = ({ s with closed := decide (t.call = .close) }, .ok ())
      else
        ∃ reply, s.attempt? t.call = some ⟨entries l.window, reply⟩ ∧
        client.answer t.now t.call s =
          ({ s with
              pending := []
              closed := decide (t.call = .close)
              backend := { s.backend with
                received := s.backend.received ++ (s₀.request? (entries l.window)).toList } },
            SeriesClient.judge reply)) ∧
    ∀ base, Delivery.Url.IsBase backend.plainName options.apiUrl base →
      (∀ target, backend.listensAt { base with target } = true) →
      ∃ before requests,
        s.backend = { backend with received := backend.received ++ requests } ∧
        List.Forall₂ (fun window r => Delivery.Request.Submits r
          { base with target := before ++ "/api/v1/series" } key host (entries window))
          l.submitted requests ∧
        ∀ t : Turn, t.call = .flush ∨ t.call = .close → s.closed = false → l.window ≠ [] →
          ∃ r : Delivery.Request,
            r.Submits { base with target := before ++ "/api/v1/series" } key host (entries l.window) ∧
            client.answer t.now t.call s =
              ({ s with
                  pending := []
                  closed := decide (t.call = .close)
                  backend := { s.backend with received := s.backend.received ++ [r] } },
                SeriesClient.judge (backend.script s.backend.received.length).arriving) := by
  intro xs s l
  have hs₀ := SeriesClient.create_eq_ok hnew
  obtain ⟨hp, hc⟩ := SeriesClient.create_fresh hnew
  have hagrees : l.Agrees s := agrees_of hp hc turns
  have hbackend : s.backend = { backend with
      received := backend.received ++ l.submitted.filterMap fun w => s₀.request? (entries w) } := by
    have h := backend_after hp hc turns
    rwa [show s₀.backend = backend by rw [hs₀]] at h
  have hrequest : ∀ points, s.request? points = s₀.request? points :=
    SeriesClient.request?_after turns s₀
  refine ⟨hagrees.pending, ?_, writes_of xs, points_attempts hp hc turns, ?_,
    fun t w hw => hagrees.write hw, ?_, ?_⟩
  · rw [hagrees.pending, keys_entries]
    exact nodup_seriesOf l.window
  · rw [hagrees.closed]
    exact closed_of turns s₀
  · intro t ht
    have hnext := hagrees.deliver ht
    split
    · next hc => rwa [if_pos hc] at hnext
    next hc =>
    rw [if_neg hc] at hnext
    split
    · next hnil => rwa [if_pos hnil] at hnext
    next hnil =>
    rw [if_neg hnil, SeriesClient.post_eq, hrequest] at hnext
    refine ⟨_, hnext.1, ?_⟩
    rw [hnext.2]
    cases s₀.request? (entries l.window) <;> simp
  · intro base hbase hlistens
    obtain ⟨before, hall⟩ := SeriesClient.request?_of_base hnew hkey hbase hlistens
    refine ⟨before, l.submitted.map fun w => SeriesClient.request
      { base with target := before ++ "/api/v1/series" } key host (entries w), ?_, ?_, ?_⟩
    · rw [hbackend, ← List.filterMap_eq_map]
      exact congrArg (fun sent => { backend with received := backend.received ++ sent })
        (List.filterMap_congr fun w _ => hall (entries w))
    · rw [List.forall₂_map_right_iff]
      exact List.forall₂_same.2 fun w _ => SeriesClient.submits_request _ key host (entries w)
    · intro t ht hopen hne
      have hnext := hagrees.deliver ht
      rw [hopen, if_neg Bool.false_ne_true, if_neg hne, SeriesClient.post_eq, hrequest, hall] at hnext
      refine ⟨_, SeriesClient.submits_request _ key host (entries l.window), ?_⟩
      rw [hnext.2, hbackend]

/-- A window that was submitted, and after it one with one series, to which a
value that is not finite was refused. -/
theorem client_by_ledger_two_windows :
    let small : Binary64 := .ofRatio false 3 1
    let options : DeliveryOptions := ⟨"http://127.0.0.1:47125/", .ofMillis 5000⟩
    let backend : Delivery.Backend := .plain "127.0.0.1" 47125 fun _ => .answered 503 []
    let turns : List Turn :=
      [⟨.ofSeconds 10, .gauge "load" small ["b", "a"]⟩, ⟨.ofSeconds 10, .flush⟩,
        ⟨.ofSeconds 11, .count "hits" small []⟩, ⟨.ofSeconds 12, .gauge "hits" .nan []⟩,
        ⟨.ofSeconds 13, .count "hits" small []⟩]
    ∃ s₀, SeriesClient.create "web-01" ⟨"secret"⟩ options backend = .ok s₀ ∧
      Delivery.Backend.canCarry "secret" = true ∧
      (client.after turns s₀).pending = [⟨⟨.count, "hits", []⟩, .ofRatio false 6 1, 11⟩] ∧
      ∃ r : Delivery.Request, (client.after turns s₀).backend.received = [r] ∧ r.method = "POST" ∧
        r.target = "/api/v1/series" ∧ r.header? "DD-API-KEY" = some "secret" ∧
        Submission.Carries "web-01" [⟨⟨.gauge, "load", ["b", "a"]⟩, small, 10⟩] r.body := by
  intro small options backend turns
  have hnew : SeriesClient.create "web-01" ⟨"secret"⟩ options backend =
      .ok (.fresh "web-01" options backend ⟨"secret"⟩) :=
    SeriesClient.create_nonblank _ _ _ (by decide)
  have hkey : Delivery.Backend.canCarry "secret" = true := by decide
  have hbase : Delivery.Url.IsBase backend.plainName options.apiUrl
      ⟨false, "127.0.0.1", 47125, "/", none⟩ :=
    ⟨by decide +kernel, by decide +kernel, by decide +kernel⟩
  obtain ⟨hpending, -, -, -, -, -, -, hreached⟩ := client_by_ledger hnew hkey turns
  obtain ⟨before, requests, hreceived, hsubmits, -⟩ := hreached _ hbase fun _ => rfl
  have hwindows : (Ledger.of (client.exchanges turns (.fresh "web-01" options backend ⟨"secret"⟩))).submitted =
      [[⟨⟨.gauge, "load", ["b", "a"]⟩, small, 10⟩]] := by decide +kernel
  rw [hwindows] at hsubmits
  obtain ⟨r, rfl⟩ : ∃ r, requests = [r] := List.length_eq_one_iff.1 hsubmits.length_eq.symm
  obtain ⟨hr, -⟩ := List.forall₂_cons.1 hsubmits
  have hone : (client.after turns (.fresh "web-01" options backend ⟨"secret"⟩)).backend.received = [r] := by
    rw [hreceived]
    rfl
  have htargets : (client.after turns (.fresh "web-01" options backend ⟨"secret"⟩)).backend.received.map
      (·.target) = ["/api/v1/series"] := by decide +kernel
  rw [hone] at htargets
  obtain ⟨htarget, -⟩ := List.cons.inj htargets
  have hentries : entries [⟨⟨.gauge, "load", ["b", "a"]⟩, small, 10⟩] =
      [⟨⟨.gauge, "load", ["b", "a"]⟩, small, 10⟩] := by decide +kernel
  exact ⟨_, hnew, hkey, hpending.trans (by decide +kernel), r, hone, hr.method, htarget, hr.key,
    hentries ▸ hr.carries⟩

end Ledger

end MetricStream
