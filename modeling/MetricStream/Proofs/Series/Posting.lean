/-
What the buffering client does with one call, and what reaches its backend.

A write is recorded or refused. A flush of an open client and its close attempt
one submission if there is a point to submit, and none otherwise; `attempt?` is
that submission with its reply. A submission is one request, and the backend
receives it if it is what listens at the address and the key can be written in a
header.
-/
import Mathlib.Data.List.Basic
import MetricStream.Client.Series
import MetricStream.Proofs.Client.History

namespace MetricStream

theorem Delivery.Reply.ne_lost {reply : Reply} (h : reply.isAccepted = true) : reply ≠ .lost := by
  rintro rfl
  cases h

theorem Delivery.Reply.isAccepted_arriving (reply : Reply) :
    reply.arriving.isAccepted = reply.isAccepted := by
  cases reply with
  | lost => rfl
  | answered status body =>
    simp only [arriving]
    split
    · rfl
    split
    · rfl
    · next hout =>
      have hrefused : (decide (200 ≤ status) && decide (status < 300)) = false := by
        simp only [Bool.and_eq_false_iff, decide_eq_false_iff_not]
        omega
      exact hrefused.symm

/-- A submission as it was attempted: the points that were given up for it, and
what came back. -/
structure Attempt where
  points : List Point
  reply : Delivery.Reply

namespace SeriesClient

open Delivery (Backend Url)

/-- Posts points as the client posts them. -/
def post (s : SeriesClient) (points : List Point) : Backend × Delivery.Reply :=
  s.backend.post s.address (headers s.apiKey) (Submission.body s.host points)

/-- The submission that a call attempts, if it attempts one. -/
def attempt? (s : SeriesClient) (call : Call) : Option Attempt :=
  if (call = .flush ∨ call = .close) ∧ s.closed = false ∧ s.pending ≠ [] then
    some ⟨s.pending, (s.post s.pending).2⟩
  else none

/-- The submissions that calls attempt, in order. -/
def attempts : List Turn → SeriesClient → List Attempt
  | [], _ => []
  | t :: turns, s => (s.attempt? t.call).toList ++ attempts turns (client.answer t.now t.call s).1

/-! ## New clients -/

section

variable (host : String) {key : ApiKey} (options : DeliveryOptions) (backend : Backend)

/-- A client that has not been asked anything. -/
def fresh (key : ApiKey) : SeriesClient :=
  ⟨host, key, seriesAddress options.apiUrl, [], false, backend⟩

theorem create_nonblank (h : Text.trim key.secret.toList ≠ []) :
    create host key options backend = .ok (fresh host options backend key) :=
  if_neg fun hblank => h (List.isEmpty_iff.1 hblank)

theorem create_blank (h : Text.trim key.secret.toList = []) :
    create host key options backend = .error .missingApiKey :=
  if_pos (List.isEmpty_iff.2 h)

end

theorem create_eq_ok {host : String} {key : ApiKey} {options : DeliveryOptions} {backend : Backend}
    {s : SeriesClient} (h : create host key options backend = .ok s) :
    s = ⟨host, key, seriesAddress options.apiUrl, [], false, backend⟩ := by
  unfold create at h
  split at h
  · cases h
  · exact (Except.ok.inj h).symm

theorem create_fresh {host : String} {key : ApiKey} {options : DeliveryOptions} {backend : Backend}
    {s : SeriesClient} (h : create host key options backend = .ok s) :
    s.pending = [] ∧ s.closed = false := by
  rw [create_eq_ok h]
  exact ⟨rfl, rfl⟩

/-! ## One call -/

theorem answer_eq (now : Instant) (call : Call) (s : SeriesClient) :
    client.answer now call s =
      match call.asCount with
      | .gauge metric value tags => s.write ⟨.gauge, metric, tags⟩ value now
      | .count metric value tags => s.write ⟨.count, metric, tags⟩ value now
      | .flush => s.flush
      | .close => s.close
      | _ => (s, .ok ()) := rfl

theorem answer_write {t : Turn} {w : Write} (h : t.write? = some w) (s : SeriesClient) :
    client.answer t.now t.call s =
      if s.closed then (s, .error .closed)
      else if w.value.isFinite then ({ s with pending := record w s.pending }, .ok ())
      else (s, .error (.nonFinite w.key.metric)) := by
  have hw : client.answer t.now t.call s = s.write w.key w.value t.now ∧ w.second = t.now.seconds := by
    obtain ⟨now, call⟩ := t
    cases call <;> simp only [Turn.write?, Option.some.injEq, reduceCtorEq] at h <;> subst h <;>
      simp only [answer_eq, Call.asCount, and_self]
  rw [hw.1, write, ← hw.2]

theorem submit_empty {s : SeriesClient} (h : s.pending = []) : s.submit = (s, .ok ()) := if_pos h

theorem submit_points {s : SeriesClient} (h : s.pending ≠ []) :
    s.submit = ({ s with pending := [], backend := (s.post s.pending).1 }, judge (s.post s.pending).2) := by
  rw [submit, if_neg h]
  rfl

theorem submit_pending (s : SeriesClient) : s.submit.1.pending = [] := by
  by_cases h : s.pending = []
  · rw [submit_empty h, h]
  · rw [submit_points h]

theorem answer_closed {t : Turn} (hw : t.write? = none) {s : SeriesClient} (h : s.closed = true) :
    client.answer t.now t.call s = (s, if t.call = .close then .ok () else .error .closed) := by
  rcases Turn.write?_eq_none.1 hw with hc | hc
  · rw [answer_eq, hc]
    exact if_pos h
  · rw [answer_eq, hc]
    exact if_pos h

theorem answer_open {t : Turn} (hw : t.write? = none) {s : SeriesClient} (h : s.closed = false) :
    client.answer t.now t.call s =
      ({ s.submit.1 with closed := decide (t.call = .close) }, s.submit.2) := by
  rcases Turn.write?_eq_none.1 hw with hc | hc
  · simp only [answer_eq, hc, Call.asCount, flush, h, Bool.false_eq_true, if_false, reduceCtorEq,
      decide_false]
    by_cases hp : s.pending = []
    · rw [submit_empty hp, ← h]
    · rw [submit_points hp, ← h]
  · simp only [answer_eq, hc, Call.asCount, close, h, Bool.false_eq_true, if_false, decide_true]
    by_cases hp : s.pending = []
    · rw [submit_empty hp, submit_empty (s := { s with closed := true }) hp]
    · rw [submit_points hp, submit_points (s := { s with closed := true }) hp]
      rfl

theorem attempt?_write {t : Turn} {w : Write} (hw : t.write? = some w) (s : SeriesClient) :
    s.attempt? t.call = none := by
  refine if_neg fun h => ?_
  rw [Turn.write?_eq_none.2 h.1] at hw
  cases hw

theorem attempt?_closed {s : SeriesClient} (h : s.closed = true) (call : Call) :
    s.attempt? call = none := by
  simp [attempt?, h]

theorem attempt?_empty {s : SeriesClient} (h : s.pending = []) (call : Call) :
    s.attempt? call = none := by
  simp [attempt?, h]

theorem attempt?_points {t : Turn} (hw : t.write? = none) {s : SeriesClient} (h : s.closed = false)
    (hp : s.pending ≠ []) : s.attempt? t.call = some ⟨s.pending, (s.post s.pending).2⟩ :=
  if_pos ⟨Turn.write?_eq_none.1 hw, h, hp⟩

theorem points_of_attempt? {s : SeriesClient} {call : Call} {a : Attempt}
    (h : s.attempt? call = some a) : a.points = s.pending ∧ s.pending ≠ [] := by
  unfold attempt? at h
  split at h
  · next hp => exact ⟨congrArg Attempt.points (Option.some.inj h).symm, hp.2.2⟩
  · cases h

theorem answer_write_state {t : Turn} {w : Write} (hw : t.write? = some w) (s : SeriesClient) :
    (client.answer t.now t.call s).1 =
      { s with
        pending := if s.closed = false ∧ w.value.isFinite then record w s.pending else s.pending } := by
  rw [answer_write hw]
  split
  · next hc => rw [if_neg fun h => by simp [hc] at h]
  split
  · next hc hf => rw [if_pos ⟨by simpa using hc, hf⟩]
  · next hf => rw [if_neg fun h => hf h.2]

/-- What a call leaves pending: a write is recorded if the client is open and the
value finite, and a flush or the close of an open client leaves nothing. -/
theorem pending_answer (t : Turn) (s : SeriesClient) :
    (client.answer t.now t.call s).1.pending =
      match t.write? with
      | some w => if s.closed = false ∧ w.value.isFinite then record w s.pending else s.pending
      | none => if s.closed = false then [] else s.pending := by
  cases hw : t.write? with
  | some w => rw [answer_write_state hw]
  | none =>
    cases hc : s.closed with
    | true => simp [answer_closed hw hc]
    | false => simp [answer_open hw hc, submit_pending]

theorem closed_answer (t : Turn) (s : SeriesClient) :
    (client.answer t.now t.call s).1.closed = (s.closed || decide (t.call = .close)) := by
  cases hw : t.write? with
  | some w =>
    have hcall : t.call ≠ .close := fun hc => by simp [Turn.write?, hc] at hw
    rw [answer_write_state hw, decide_eq_false hcall, Bool.or_false]
  | none =>
    cases hc : s.closed with
    | true => rw [answer_closed hw hc, hc, Bool.true_or]
    | false =>
      rw [answer_open hw hc]
      rfl

theorem open_answer {t : Turn} {s : SeriesClient} (hopen : s.closed = false)
    (ht : t.call ≠ .close) : (client.answer t.now t.call s).1.closed = false := by
  rw [closed_answer, hopen, decide_eq_false ht]
  rfl

theorem answer_by_attempt (t : Turn) (s : SeriesClient) :
    (client.answer t.now t.call s).2 =
      match t.write? with
      | some w =>
        if s.closed then .error .closed
        else if w.value.isFinite then .ok ()
        else .error (.nonFinite w.key.metric)
      | none =>
        if s.closed then if t.call = .close then .ok () else .error .closed
        else ((s.attempt? t.call).map fun a => judge a.reply).getD (.ok ()) := by
  cases hw : t.write? with
  | some w =>
    rw [answer_write hw]
    dsimp only
    cases s.closed <;> cases w.value.isFinite <;> rfl
  | none =>
    cases hc : s.closed with
    | true => rw [answer_closed hw hc, if_pos rfl]
    | false =>
      rw [answer_open hw hc]
      by_cases hp : s.pending = []
      · rw [submit_empty hp, attempt?_empty hp]
        rfl
      · rw [submit_points hp, attempt?_points hw hc hp]
        rfl

theorem judge_eq_ok {reply : Delivery.Reply} : judge reply = .ok () ↔ reply.isAccepted = true := by
  cases reply with
  | lost => simp [judge, Delivery.Reply.isAccepted]
  | answered status body =>
    unfold judge
    split <;> simp_all

/-- A reply is held against the client with a status exactly if it has this
status and is not accepted; its octets are then told as text. -/
theorem judge_eq_status {reply : Delivery.Reply} {code : Nat} {body : String} :
    judge reply = .error (.status code body) ↔
      ∃ octets, reply = .answered code octets ∧ reply.isAccepted = false ∧
        body = String.ofList (Text.Octets.decodeMarked octets) := by
  cases reply with
  | lost => simp [judge]
  | answered status octets =>
    simp only [judge, Delivery.Reply.answered.injEq]
    split
    · next h => simp [h]
    · next h =>
      simp only [Except.error.injEq, ClientError.status.injEq]
      constructor
      · rintro ⟨rfl, rfl⟩
        exact ⟨octets, ⟨rfl, rfl⟩, by simpa using h, rfl⟩
      · rintro ⟨_, ⟨rfl, rfl⟩, -, rfl⟩
        exact ⟨rfl, rfl⟩

/-- An open client accepts a finite value always, and a flush or its close
exactly if the submission that this attempts is accepted. -/
theorem answer_eq_ok {t : Turn} {s : SeriesClient} (hopen : s.closed = false)
    (hfinite : ∀ w, t.write? = some w → w.value.isFinite = true) :
    (client.answer t.now t.call s).2 = .ok () ↔
      ∀ a, s.attempt? t.call = some a → a.reply.isAccepted = true := by
  rw [answer_by_attempt]
  cases hw : t.write? with
  | some w => simp [attempt?_write hw, hopen, hfinite w hw]
  | none => cases s.attempt? t.call <;> simp [hopen, judge_eq_ok]

/-- What an open client refuses of finite values is a submission, and the reply
to it is why. -/
theorem attempt_of_refused {t : Turn} {s : SeriesClient} {e : ClientError} (hopen : s.closed = false)
    (hfinite : ∀ w, t.write? = some w → w.value.isFinite = true)
    (h : (client.answer t.now t.call s).2 = .error e) :
    ∃ a, s.attempt? t.call = some a ∧ judge a.reply = .error e := by
  rw [answer_by_attempt] at h
  cases hw : t.write? with
  | some w => simp [hw, hopen, hfinite w hw] at h
  | none =>
    cases ha : s.attempt? t.call with
    | none => simp [hw, hopen, ha] at h
    | some a => exact ⟨a, rfl, by simpa [hw, hopen, ha] using h⟩

theorem pending_of_attempt {t : Turn} {s : SeriesClient} {a : Attempt}
    (h : s.attempt? t.call = some a) : (client.answer t.now t.call s).1.pending = [] := by
  rw [pending_answer]
  cases hw : t.write? with
  | some w =>
    rw [attempt?_write hw] at h
    cases h
  | none =>
    cases hc : s.closed with
    | true =>
      rw [attempt?_closed hc] at h
      cases h
    | false => rfl

/-! ## Any number of calls -/

theorem attempts_append (xs ys : List Turn) (s : SeriesClient) :
    attempts (xs ++ ys) s = attempts xs s ++ attempts ys (client.after xs s) := by
  induction xs generalizing s with
  | nil => rfl
  | cons t xs ih => rw [List.cons_append, attempts, attempts, ih, List.append_assoc, Client.after]

theorem attempts_last {early late : List Turn} {t : Turn} {s : SeriesClient}
    (h : attempts late (client.after (early ++ [t]) s) = []) :
    attempts (early ++ t :: late) s =
      attempts early s ++ ((client.after early s).attempt? t.call).toList := by
  rw [client.after_append] at h
  rw [attempts_append, attempts]
  exact congrArg (_ ++ ·) ((congrArg (_ ++ ·) h).trans (List.append_nil _))

theorem closed_after {turns : List Turn} {s : SeriesClient} (hopen : s.closed = false)
    (h : ∀ t ∈ turns, t.call ≠ .close) : (client.after turns s).closed = false := by
  induction turns generalizing s with
  | nil => exact hopen
  | cons t turns ih =>
    exact ih (open_answer hopen (h t (by simp))) fun u hu => h u (by simp [hu])

/-- Until the close, each submission is a flush's. -/
theorem length_attempts_le {turns : List Turn} (h : ∀ t ∈ turns, t.call ≠ .close)
    (s : SeriesClient) : (attempts turns s).length ≤ (turns.map (·.call)).count .flush := by
  induction turns generalizing s with
  | nil => exact Nat.le_refl 0
  | cons t turns ih =>
    have hrest := ih (fun u hu => h u (by simp [hu])) (client.answer t.now t.call s).1
    rw [attempts, List.length_append, List.map_cons, List.count_cons, Nat.add_comm]
    refine Nat.add_le_add hrest ?_
    by_cases hflush : t.call = .flush
    · rw [if_pos (by simp [hflush])]
      exact Option.length_toList_le
    · have hnone : s.attempt? t.call = none := by simp [attempt?, hflush, h t (by simp)]
      simp [hnone]

theorem exchanges_ok {turns : List Turn} {s : SeriesClient} (hopen : s.closed = false)
    (h : ∀ t ∈ turns, t.call ≠ .close)
    (hfinite : ∀ t ∈ turns, ∀ w, t.write? = some w → w.value.isFinite = true) :
    (∀ x ∈ client.exchanges turns s, x.answer = .ok ()) ↔
      ∀ a ∈ attempts turns s, a.reply.isAccepted = true := by
  induction turns generalizing s with
  | nil => simp [Client.exchanges, attempts]
  | cons t turns ih =>
    have hrest := ih (open_answer hopen (h t (by simp))) (fun u hu => h u (by simp [hu]))
      fun u hu => hfinite u (by simp [hu])
    have hfirst := answer_eq_ok hopen (hfinite t (by simp))
    rw [Client.exchanges, attempts, List.forall_mem_cons, List.forall_mem_append, hfirst, hrest]
    simp only [Option.mem_toList]

/-! ## What is received -/

/-- Where submissions are posted, if their address resolves. -/
def url? (s : SeriesClient) : Option Url := Url.read? s.backend.plainName s.address

/-- The request that takes points there. -/
def request (url : Url) (key : ApiKey) (host : String) (points : List Point) : Delivery.Request :=
  ⟨"POST", url.target, url.headers ++ headers key, Submission.body host points⟩

/-- The request that gets through with points, if the backend is what listens at
the address. A key that cannot be written in a header lets none through. -/
def request? (s : SeriesClient) (points : List Point) : Option Delivery.Request :=
  if Backend.canCarry s.apiKey.secret then
    (s.url?.filter s.backend.listensAt).map (request · s.apiKey s.host points)
  else none

theorem request?_eq_none (s : SeriesClient) (ps qs : List Point) :
    s.request? ps = none ↔ s.request? qs = none := by
  unfold request?
  split <;> simp

theorem all_headers (key : ApiKey) :
    (headers key).all (fun h => Backend.canCarry h.2) = Backend.canCarry key.secret := by
  have htype : Backend.canCarry "application/json" = true := by decide
  have hagent : Backend.canCarry userAgent = true := by decide
  simp only [headers, List.all_cons, List.all_nil, htype, hagent, Bool.and_true]

/-- A post is one request, answered by the script, or nothing at all. -/
theorem post_eq (s : SeriesClient) (points : List Point) :
    s.post points =
      match s.request? points with
      | none => (s.backend, .lost)
      | some r => ({ s.backend with received := s.backend.received ++ [r] },
          (s.backend.script s.backend.received.length).arriving) := by
  unfold post Backend.post request? url?
  rw [all_headers]
  rcases Url.read? s.backend.plainName s.address with _ | url
  · simp
  · cases hk : Backend.canCarry s.apiKey.secret <;> cases hl : s.backend.listensAt url <;>
      simp [Option.filter, hl, request]

theorem request?_eq_some {s : SeriesClient} {points : List Point} {r : Delivery.Request}
    (h : s.request? points = some r) :
    ∃ url, s.url? = some url ∧ r = request url s.apiKey s.host points := by
  unfold request? at h
  split at h
  case isFalse => cases h
  obtain ⟨url, hurl, rfl⟩ := Option.map_eq_some_iff.1 h
  exact ⟨url, (Option.filter_eq_some_iff.1 hurl).1, rfl⟩

theorem request?_of_attempt? {s : SeriesClient} {call : Call} {a : Attempt}
    (ha : s.attempt? call = some a) (h : a.reply ≠ .lost) :
    ∃ url, s.url? = some url ∧ s.request? a.points = some (request url s.apiKey s.host a.points) ∧
      a.reply = (s.backend.script s.backend.received.length).arriving := by
  unfold attempt? at ha
  split at ha
  case isFalse => cases ha
  obtain rfl := (Option.some.inj ha).symm
  simp only [post_eq] at h ⊢
  rcases hr : s.request? s.pending with _ | r
  · simp [hr] at h
  · obtain ⟨url, hurl, rfl⟩ := request?_eq_some hr
    exact ⟨url, hurl, rfl, rfl⟩

/-- **One call, and what it leaves alone.** It amends the points, the end and
what the backend received, and the last only by the request of its attempt. -/
theorem answer_frame (t : Turn) (s : SeriesClient) :
    ∃ pending closed, (client.answer t.now t.call s).1 =
      { s with
        pending, closed
        backend := { s.backend with
          received := s.backend.received ++
            (s.attempt? t.call).toList.filterMap fun a => s.request? a.points } } := by
  cases hw : t.write? with
  | some w =>
    have ha := answer_write hw s
    rw [attempt?_write hw]
    split at ha
    · exact ⟨s.pending, s.closed, by rw [ha]; simp⟩
    split at ha
    · exact ⟨record w s.pending, s.closed, by rw [ha]; simp⟩
    · exact ⟨s.pending, s.closed, by rw [ha]; simp⟩
  | none =>
    cases hc : s.closed with
    | true => exact ⟨s.pending, s.closed, by rw [answer_closed hw hc, attempt?_closed hc]; simp⟩
    | false =>
      rw [answer_open hw hc]
      by_cases hp : s.pending = []
      · refine ⟨s.pending, decide (t.call = .close), ?_⟩
        rw [submit_empty hp, attempt?_empty hp]
        simp
      · refine ⟨[], decide (t.call = .close), ?_⟩
        rw [submit_points hp, attempt?_points hw hc hp, post_eq]
        rcases hr : s.request? s.pending with _ | r <;> simp [hr]

theorem after_frame (turns : List Turn) (s : SeriesClient) :
    ∃ pending closed, client.after turns s =
      { s with
        pending, closed
        backend := { s.backend with
          received := s.backend.received ++
            (attempts turns s).filterMap fun a => s.request? a.points } } := by
  induction turns generalizing s with
  | nil => exact ⟨s.pending, s.closed, by simp [Client.after, attempts]⟩
  | cons t turns ih =>
    obtain ⟨pending, closed, hs⟩ := answer_frame t s
    obtain ⟨pending', closed', hs'⟩ := ih (client.answer t.now t.call s).1
    refine ⟨pending', closed', ?_⟩
    rw [Client.after, attempts, hs', List.filterMap_append, ← List.append_assoc]
    rw [hs]
    rfl

theorem request?_after (turns : List Turn) (s : SeriesClient) (points : List Point) :
    (client.after turns s).request? points = s.request? points := by
  obtain ⟨pending, closed, hs⟩ := after_frame turns s
  rw [hs]
  rfl

/-- No attempt makes more than one request. -/
theorem length_received_le (turns : List Turn) (s : SeriesClient) :
    (client.after turns s).backend.received.length ≤
      s.backend.received.length + (attempts turns s).length := by
  obtain ⟨pending, closed, hs⟩ := after_frame turns s
  rw [hs, List.length_append]
  exact Nat.add_le_add_left (List.length_filterMap_le ..) _

/-- An attempt that is not lost has a request, to the one address of the client. -/
theorem request?_of_mem_attempts {turns : List Turn} {s : SeriesClient} {a : Attempt}
    (ha : a ∈ attempts turns s) (h : a.reply ≠ .lost) :
    ∃ url, s.url? = some url ∧ s.request? a.points = some (request url s.apiKey s.host a.points) := by
  induction turns generalizing s with
  | nil => simp [attempts] at ha
  | cons t turns ih =>
    rw [attempts, List.mem_append, Option.mem_toList] at ha
    rcases ha with ha | ha
    · obtain ⟨url, hurl, hr, -⟩ := request?_of_attempt? ha h
      exact ⟨url, hurl, hr⟩
    · -- The calls before leave the address, the key and the backend as they are.
      obtain ⟨pending, closed, hs⟩ := answer_frame t s
      have hr := ih ha
      rw [hs] at hr
      exact hr

theorem forall₂_filterMap {α β : Type} {R : α → β → Prop} {f : α → Option β} {xs : List α}
    (h : ∀ x ∈ xs, ∃ y, f x = some y ∧ R x y) : List.Forall₂ R xs (xs.filterMap f) := by
  induction xs with
  | nil => exact .nil
  | cons x xs ih =>
    obtain ⟨⟨y, hy, hxy⟩, hrest⟩ := List.forall_mem_cons.1 h
    rw [List.filterMap_cons_some hy]
    exact .cons hxy (ih hrest)

theorem received_after {turns : List Turn} {s : SeriesClient}
    (h : ∀ a ∈ attempts turns s, a.reply ≠ .lost) :
    ∃ requests, (client.after turns s).backend.received = s.backend.received ++ requests ∧
      List.Forall₂ (fun (a : Attempt) r => ∃ url, s.url? = some url ∧
        r = request url s.apiKey s.host a.points) (attempts turns s) requests := by
  obtain ⟨pending, closed, hs⟩ := after_frame turns s
  refine ⟨_, by rw [hs], forall₂_filterMap fun a ha => ?_⟩
  obtain ⟨url, hurl, hr⟩ := request?_of_mem_attempts ha (h a ha)
  exact ⟨_, hr, url, hurl, rfl⟩

/-- Where no attempt is lost, each has its request, in the order of the
attempts, and the script's reply to it. -/
theorem received_of_attempts {turns : List Turn} {s : SeriesClient}
    (h : ∀ a ∈ attempts turns s, a.reply ≠ .lost) {j : Nat} {a : Attempt}
    (ha : (attempts turns s)[j]? = some a) :
    ∃ url, s.url? = some url ∧
      (client.after turns s).backend.received[s.backend.received.length + j]? =
        some (request url s.apiKey s.host a.points) ∧
      a.reply = (s.backend.script (s.backend.received.length + j)).arriving := by
  induction turns generalizing s j with
  | nil => simp [attempts] at ha
  | cons t turns ih =>
    obtain ⟨pending, closed, hs⟩ := answer_frame t s
    rw [attempts] at h ha
    rw [Client.after]
    cases hat : s.attempt? t.call with
    | none =>
      rw [hat] at h ha hs
      simp only [Option.toList_none, List.nil_append, List.filterMap_nil, List.append_nil] at h ha hs
      have hj := ih h ha
      rw [hs] at hj ⊢
      exact hj
    | some b =>
      rw [hat] at h ha hs
      simp only [Option.toList_some, List.singleton_append, List.mem_cons, forall_eq_or_imp] at h ha
      obtain ⟨url, hurl, hr, hreply⟩ := request?_of_attempt? hat h.1
      have hone : (some b).toList.filterMap (fun a => s.request? a.points) =
          [request url s.apiKey s.host b.points] := by
        simp [hr]
      rw [hone] at hs
      -- The first request is this call's own, and the others are those of the calls after it.
      cases j with
      | zero =>
        obtain rfl : b = a := by simpa using ha
        obtain ⟨pending', closed', hs'⟩ := after_frame turns (client.answer t.now t.call s).1
        refine ⟨url, hurl, ?_, hreply⟩
        rw [hs', hs]
        simp
      | succ j =>
        have hj := ih h.2 ha
        rw [hs] at hj ⊢
        simpa [url?, Nat.add_assoc, Nat.add_comm 1 j] using hj

end SeriesClient

end MetricStream
