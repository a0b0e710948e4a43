/-
Series that leave each other alone.

A write finds its point by the whole key of its series. So the writes to other
series may be deleted without a trace in the points of one (`Restricts`), and
two neighbouring writes to different series may change places: the points
change their order with them, in the one submission where they end up, and
nothing else does (`Alike.run`). Both are shown of two clients side by side, one
call at a time.
-/
import MetricStream.Proofs.Series.Ledger

namespace MetricStream

open SeriesClient (client)

/-! ## Recording, one series and another -/

theorem keys_record (w : Write) (ps : List Point) :
    (record w ps).map (·.key) =
      if w.key ∈ ps.map (·.key) then ps.map (·.key) else ps.map (·.key) ++ [w.key] := by
  induction ps with
  | nil => rfl
  | cons p ps ih =>
    by_cases h : p.key = w.key
    · simp [record, h]
    · rw [record, if_neg h, List.map_cons, ih, List.map_cons]
      by_cases hm : w.key ∈ ps.map (·.key) <;> simp [hm, Ne.symm h]

/-- Writes to different series commute, up to the order of their points. -/
theorem record_record_perm {w v : Write} (h : w.key ≠ v.key) (ps : List Point) :
    (record v (record w ps)).Perm (record w (record v ps)) := by
  induction ps with
  | nil => simpa [record, Point.ofWrite, h, h.symm] using List.Perm.swap _ _ _
  | cons p ps ih =>
    by_cases hw : p.key = w.key
    · simp [record, hw, h]
    · by_cases hv : p.key = v.key
      · simp [record, hv, h.symm]
      · simpa [record, hw, hv] using ih

/-- The same points in another order, with one for each series. -/
def Reordered (ps qs : List Point) : Prop := (ps.map (·.key)).Nodup ∧ ps.Perm qs

/-- A write goes to the same point in whatever order they stand, since no series
has two. -/
theorem Reordered.record {ps qs : List Point} (h : Reordered ps qs) (w : Write) :
    Reordered (record w ps) (record w qs) := by
  obtain ⟨hn, hp⟩ := h
  constructor
  · rw [keys_record]
    split
    · exact hn
    · next hm => exact List.nodup_append.2 ⟨hn, by simp, by simpa using hm⟩
  induction hp with
  | nil => exact List.Perm.refl _
  | cons p hp ih =>
    rw [MetricStream.record, MetricStream.record]
    split
    · exact hp.cons _
    · exact (ih (List.nodup_cons.1 hn).2).cons p
  | swap p q ps =>
    have hne : q.key ≠ p.key := fun h => by simp [h] at hn
    by_cases hq : q.key = w.key
    · have hp : p.key ≠ w.key := fun hp => hne (hq.trans hp.symm)
      simpa [MetricStream.record, hq, hp] using List.Perm.swap _ _ _
    · by_cases hp : p.key = w.key <;>
        simpa [MetricStream.record, hq, hp] using List.Perm.swap _ _ _
  | trans hp hq ihp ihq => exact (ihp hn).trans (ihq ((hp.map _).nodup_iff.1 hn))

namespace SeriesClient

/-- The points that a call submits, if it submits any. -/
def submission (s : SeriesClient) (call : Call) : List Point :=
  ((s.attempt? call).map (·.points)).getD []

/-- The points that calls give up, one submission after the other, and at last
those that still wait. -/
def deliveries (turns : List Turn) (s : SeriesClient) : List (List Point) :=
  (attempts turns s).map (·.points) ++ [(client.after turns s).pending]

theorem deliveries_cons (t : Turn) (turns : List Turn) (s : SeriesClient) :
    deliveries (t :: turns) s =
      (s.attempt? t.call).toList.map (·.points) ++ deliveries turns (client.answer t.now t.call s).1 := by
  rw [deliveries, attempts, List.map_append, List.append_assoc]
  rfl

theorem deliveries_append (xs ys : List Turn) (s : SeriesClient) :
    deliveries (xs ++ ys) s = (attempts xs s).map (·.points) ++ deliveries ys (client.after xs s) := by
  rw [deliveries, attempts_append, client.after_append, List.map_append, List.append_assoc]
  rfl

theorem submission_eq (s : SeriesClient) (call : Call) :
    s.submission call =
      if (call = .flush ∨ call = .close) ∧ s.closed = false then s.pending else [] := by
  unfold submission attempt?
  by_cases hp : s.pending = [] <;> by_cases hc : call = .flush ∨ call = .close <;>
    by_cases ho : s.closed = false <;> simp [hp, hc, ho]

theorem submissions_of_attempt? (s : SeriesClient) (call : Call) :
    (s.attempt? call).toList.map (·.points) = [s.submission call].filter (· ≠ []) := by
  unfold submission
  cases ha : s.attempt? call with
  | none => rfl
  | some a =>
    obtain ⟨hpoints, hne⟩ := points_of_attempt? ha
    simp [hpoints, hne]

/-! ## One series alone -/

/-- The calls without the writes to other series. -/
def onlyTo (k : SeriesKey) (turns : List Turn) : List Turn :=
  turns.filter fun t => t.write?.all (·.key = k)

/-- A client that has, of the points of another, those of one series. -/
structure Restricts (k : SeriesKey) (s s' : SeriesClient) : Prop where
  pending : s'.pending = s.pending.filter (·.key = k)
  closed : s'.closed = s.closed

namespace Restricts

variable {k : SeriesKey} {s s' : SeriesClient}

theorem submission (h : Restricts k s s') (call : Call) :
    s'.submission call = (s.submission call).filter (·.key = k) := by
  rw [submission_eq, submission_eq, h.closed, h.pending]
  split <;> rfl

theorem answer (h : Restricts k s s') {t : Turn} (ht : ∀ w, t.write? = some w → w.key = k) :
    Restricts k (client.answer t.now t.call s).1 (client.answer t.now t.call s').1 := by
  constructor
  · rw [pending_answer, pending_answer, h.closed, h.pending]
    cases hw : t.write? with
    | some w =>
      obtain rfl := ht w hw
      dsimp only
      split
      · exact (filter_record_self w s.pending).symm
      · rfl
    | none =>
      dsimp only
      split <;> rfl
  · rw [closed_answer, closed_answer, h.closed]

theorem write_other (h : Restricts k s s') {t : Turn} {w : Write} (hw : t.write? = some w)
    (hk : w.key ≠ k) : Restricts k (client.answer t.now t.call s).1 s' := by
  rw [answer_write_state hw]
  refine ⟨h.pending.trans ?_, h.closed⟩
  dsimp only
  split
  · exact (filter_record_other hk s.pending).symm
  · rfl

/-- **Any number of calls.** The one client submits of each submission of the
other what is in it of the series, if anything is, and so what waits is that of
the series too. -/
theorem run (h : Restricts k s s') (turns : List Turn) :
    Restricts k (client.after turns s) (client.after (onlyTo k turns) s') ∧
    (attempts (onlyTo k turns) s').map (·.points) =
      ((attempts turns s).map fun a => a.points.filter (·.key = k)).filter (· ≠ []) := by
  induction turns generalizing s s' with
  | nil => exact ⟨h, rfl⟩
  | cons t turns ih =>
    rw [Client.after, attempts, List.map_append, List.filter_append, onlyTo, List.filter_cons]
    split
    · next ht =>
      have ht : ∀ w, t.write? = some w → w.key = k := by
        intro w hw
        simpa [hw] using ht
      have hfirst : ((s.attempt? t.call).toList.map fun a => a.points.filter (·.key = k)).filter
          (· ≠ []) = (s'.attempt? t.call).toList.map (·.points) := by
        rw [submissions_of_attempt?, h.submission t.call, SeriesClient.submission]
        cases s.attempt? t.call <;> rfl
      obtain ⟨hafter, hattempts⟩ := ih (h.answer ht)
      exact ⟨hafter, by rw [attempts, List.map_append, hfirst, ← hattempts]; rfl⟩
    · next ht =>
      cases hw : t.write? with
      | none => simp [hw] at ht
      | some w =>
        have hk : w.key ≠ k := by simpa [hw] using ht
        rw [attempt?_write hw]
        exact ih (h.write_other hw hk)

end Restricts

/-! ## Neighbouring writes -/

/-- Clients that differ from `s` in nothing but their points, which are related
to its points, and in the requests that were received of them, of which there
are as many. -/
inductive Alike (R : List Point → List Point → Prop) (s : SeriesClient) : SeriesClient → Prop
  | intro {pending : List Point} {received : List Delivery.Request} (points : R s.pending pending)
      (length : received.length = s.backend.received.length) :
      Alike R s { s with pending, backend := { s.backend with received } }

/-- What two clients must have in common to submit at the same calls. -/
structure Respected (R : List Point → List Point → Prop) : Prop where
  nil : R [] []
  empty : ∀ {ps qs}, R ps qs → (ps = [] ↔ qs = [])
  record : ∀ {ps qs}, R ps qs → ∀ w, R (record w ps) (record w qs)

theorem respected_eq : Respected (· = ·) :=
  ⟨rfl, fun h => by rw [h], fun h w => by rw [h]⟩

theorem respected_reordered : Respected Reordered :=
  ⟨⟨List.nodup_nil, .nil⟩, fun h => by rw [← List.length_eq_zero_iff, h.2.length_eq, List.length_eq_zero_iff],
    fun h w => h.record w⟩

namespace Alike

variable {R : List Point → List Point → Prop} {s s' : SeriesClient}

theorem pending (h : Alike R s s') : R s.pending s'.pending := by
  obtain ⟨hp, -⟩ := h
  exact hp

theorem closed (h : Alike R s s') : s'.closed = s.closed := by
  obtain ⟨-, -⟩ := h
  rfl

theorem request? (h : Alike R s s') : s'.request? = s.request? := by
  obtain ⟨-, -⟩ := h
  rfl

theorem reply (h : Alike R s s') : (s'.post s'.pending).2 = (s.post s.pending).2 := by
  have hnone := request?_eq_none s s'.pending s.pending
  rw [post_eq, post_eq, h.request?]
  cases hr : s.request? s.pending with
  | none => rw [hnone.2 hr]
  | some r =>
    obtain ⟨r', hr'⟩ := Option.ne_none_iff_exists'.1 (mt hnone.1 (by simp [hr]))
    obtain ⟨-, hl⟩ := h
    rw [hr']
    exact congrArg (fun n => (s.backend.script n).arriving) hl

theorem attempt? (hR : Respected R) (h : Alike R s s') (call : Call) :
    s'.attempt? call = (s.attempt? call).map fun a => ⟨s'.pending, a.reply⟩ := by
  unfold SeriesClient.attempt?
  simp only [h.closed, h.reply, ne_eq, ← hR.empty h.pending]
  split <;> rfl

theorem answer_eq (hR : Respected R) (h : Alike R s s') (t : Turn) :
    (client.answer t.now t.call s').2 = (client.answer t.now t.call s).2 := by
  rw [answer_by_attempt, answer_by_attempt, h.closed, h.attempt? hR]
  cases s.attempt? t.call <;> rfl

theorem answer (hR : Respected R) (h : Alike R s s') (t : Turn) :
    Alike R (client.answer t.now t.call s).1 (client.answer t.now t.call s').1 := by
  have hpending : R (client.answer t.now t.call s).1.pending
      (client.answer t.now t.call s').1.pending := by
    rw [pending_answer, pending_answer, h.closed]
    cases t.write? <;> dsimp only <;> split
    · exact hR.nil
    · exact h.pending
    · exact hR.record h.pending _
    · exact h.pending
  have hclosed : (client.answer t.now t.call s').1.closed =
      (client.answer t.now t.call s).1.closed := by
    rw [closed_answer, closed_answer, h.closed]
  have hrequests : ((s'.attempt? t.call).toList.filterMap fun a => s'.request? a.points).length =
      ((s.attempt? t.call).toList.filterMap fun a => s.request? a.points).length := by
    rw [h.attempt? hR, h.request?]
    cases s.attempt? t.call with
    | none => rfl
    | some a =>
      have hnone := request?_eq_none s s'.pending a.points
      cases hr : s.request? a.points with
      | none => simp [hr, hnone.2 hr]
      | some r =>
        obtain ⟨r', hr'⟩ := Option.ne_none_iff_exists'.1 (mt hnone.1 (by simp [hr]))
        simp [hr, hr']
  obtain ⟨ps, c, hs⟩ := answer_frame t s
  obtain ⟨ps', c', hs'⟩ := answer_frame t s'
  rw [hs, hs'] at hpending hclosed ⊢
  obtain rfl : c' = c := hclosed
  obtain ⟨-, hl⟩ := h
  refine .intro hpending ?_
  rw [List.length_append, List.length_append, hrequests, hl]

theorem settle (h : Alike R s s') (heq : s.pending = s'.pending) : Alike (· = ·) s s' := by
  obtain ⟨-, hl⟩ := h
  exact .intro heq hl

/-- **Any number of calls.** The answers are the same, and so are the replies;
the points are the same but in one submission, or at last in what waits. -/
theorem run (hR : Respected R) (h : Alike R s s') (turns : List Turn) :
    client.exchanges turns s' = client.exchanges turns s ∧
    (client.after turns s').closed = (client.after turns s).closed ∧
    (attempts turns s').map (·.reply) = (attempts turns s).map (·.reply) ∧
    ∃ before points points' after, deliveries turns s = before ++ points :: after ∧
      deliveries turns s' = before ++ points' :: after ∧ R points points' := by
  induction turns generalizing R s s' with
  | nil => exact ⟨rfl, h.closed, rfl, [], _, _, [], rfl, rfl, h.pending⟩
  | cons t turns ih =>
    have hnext := h.answer hR t
    have hattempt := h.attempt? hR t.call
    simp only [Client.exchanges, Client.after, attempts, deliveries_cons, h.answer_eq hR, hattempt]
    cases ha : s.attempt? t.call with
    | none =>
      -- The points are still there, and still related.
      obtain ⟨hx, hc, hreplies, hwindows⟩ := ih hR hnext
      exact ⟨by rw [hx], hc, hreplies, hwindows⟩
    | some a =>
      -- The points are submitted, and from here on both have the same.
      rw [ha] at hattempt
      have hsettled := hnext.settle
        ((pending_of_attempt ha).trans (pending_of_attempt hattempt).symm)
      obtain ⟨hx, hc, hreplies, before, points, points', after, hone, hother, rfl⟩ :=
        ih respected_eq hsettled
      refine ⟨by rw [hx], hc, ?_, [], a.points, s'.pending, deliveries turns _, rfl, ?_, ?_⟩
      · simpa using hreplies
      · rw [hone, ← hother]
        rfl
      · rw [(points_of_attempt? ha).1]
        exact h.pending

end Alike

theorem swap_writes {t u : Turn} {w v : Write} {s : SeriesClient} (hw : t.write? = some w)
    (hv : u.write? = some v) (hne : w.key ≠ v.key) (hn : (s.pending.map (·.key)).Nodup) :
    Alike Reordered (client.after [t, u] s) (client.after [u, t] s) ∧
    ∃ x y, client.exchanges [t, u] s = [x, y] ∧ client.exchanges [u, t] s = [y, x] := by
  have hsame : Reordered s.pending s.pending := ⟨hn, .refl _⟩
  constructor
  · simp only [Client.after, answer_write_state hw, answer_write_state hv]
    refine .intro ?_ rfl
    dsimp only
    split <;> split
    · exact ⟨((hsame.record w).record v).1, record_record_perm hne s.pending⟩
    · exact hsame.record v
    · exact hsame.record w
    · exact hsame
  · have ht : (client.answer t.now t.call (client.answer u.now u.call s).1).2 =
        (client.answer t.now t.call s).2 := by
      rw [answer_by_attempt, answer_by_attempt, hw, answer_write_state hv]
    have hu : (client.answer u.now u.call (client.answer t.now t.call s).1).2 =
        (client.answer u.now u.call s).2 := by
      rw [answer_by_attempt, answer_by_attempt, hv, answer_write_state hw]
    simp only [Client.exchanges, ht, hu]
    exact ⟨_, _, rfl, rfl⟩

end SeriesClient

open SeriesClient (attempts deliveries onlyTo)

/-- **Series do not interfere**, from the creation of a client on and whatever
its calls and the replies to it. What it has to deliver of a series, in every
submission and waiting, is what it would have without the writes to all others,
value and second alike. Two neighbouring writes to different series may change
places: the answers to them change places too, and the points change their
order in one submission, or in what waits at last; every other answer, reply and
submission stays. Series differ if their kinds, their names or their lists of
tags do. -/
theorem series_do_not_interfere {host : String} {key : ApiKey} {options : DeliveryOptions}
    {backend : Delivery.Backend} {s₀ : SeriesClient}
    (hnew : SeriesClient.create host key options backend = .ok s₀) :
    (∀ turns, (client.after turns s₀).backend.received =
      backend.received ++ (attempts turns s₀).filterMap fun a => s₀.request? a.points) ∧
    (∀ (k : SeriesKey) (turns : List Turn),
      let s := client.after turns s₀
      let s' := client.after (onlyTo k turns) s₀
      s'.pending = s.pending.filter (·.key = k) ∧ s'.closed = s.closed ∧
      (∀ call, s'.submission call = (s.submission call).filter (·.key = k)) ∧
      (attempts (onlyTo k turns) s₀).map (·.points) =
        ((attempts turns s₀).map fun a => a.points.filter (·.key = k)).filter (· ≠ [])) ∧
    (∀ (early late : List Turn) (t u : Turn) (w v : Write),
      t.write? = some w → u.write? = some v → w.key ≠ v.key →
      let one := early ++ t :: u :: late
      let other := early ++ u :: t :: late
      (∃ xs x y ys, xs.length = early.length ∧ client.exchanges one s₀ = xs ++ x :: y :: ys ∧
        client.exchanges other s₀ = xs ++ y :: x :: ys) ∧
      (client.after other s₀).closed = (client.after one s₀).closed ∧
      (attempts other s₀).map (·.reply) = (attempts one s₀).map (·.reply) ∧
      ∃ before points points' after, deliveries one s₀ = before ++ points :: after ∧
        deliveries other s₀ = before ++ points' :: after ∧ points.Perm points') ∧
    ∀ k k' : SeriesKey, k ≠ k' ↔ k.kind ≠ k'.kind ∨ k.metric ≠ k'.metric ∨ k.tags ≠ k'.tags := by
  obtain ⟨hp, hc⟩ := SeriesClient.create_fresh hnew
  refine ⟨fun turns => ?_, fun k turns => ?_, ?_, fun k k' => ?_⟩
  · obtain ⟨pending, closed, hs⟩ := SeriesClient.after_frame turns s₀
    rw [hs, SeriesClient.create_eq_ok hnew]
  · have hstart : SeriesClient.Restricts k s₀ s₀ := ⟨by rw [hp]; rfl, rfl⟩
    obtain ⟨hafter, hattempts⟩ := hstart.run turns
    exact ⟨hafter.pending, hafter.closed, hafter.submission, hattempts⟩
  · intro early late t u w v hw hv hne one other
    have hn : ((client.after early s₀).pending.map (·.key)).Nodup := by
      rw [(Ledger.agrees_of hp hc early).pending, keys_entries]
      exact nodup_seriesOf _
    obtain ⟨halike, x, y, hxy, hyx⟩ := SeriesClient.swap_writes hw hv hne hn
    obtain ⟨hlate, hclosed, hreplies, before, points, points', after, hone, hother, -, hperm⟩ :=
      halike.run SeriesClient.respected_reordered late
    have hsplit : one = early ++ [t, u] ++ late := by simp [one]
    have hsplit' : other = early ++ [u, t] ++ late := by simp [other]
    have hnone : attempts [t, u] (client.after early s₀) = [] := by
      simp [attempts, SeriesClient.attempt?_write hw, SeriesClient.attempt?_write hv]
    have hnone' : attempts [u, t] (client.after early s₀) = [] := by
      simp [attempts, SeriesClient.attempt?_write hw, SeriesClient.attempt?_write hv]
    rw [hsplit, hsplit']
    simp only [client.exchanges_append, client.after_append, SeriesClient.attempts_append,
      SeriesClient.deliveries_append, hnone, hnone', hxy, hyx, hlate]
    refine ⟨⟨client.exchanges early s₀, x, y,
        client.exchanges late (client.after [t, u] (client.after early s₀)), ?_, by simp, by simp⟩,
      hclosed, ?_, (attempts early s₀).map (·.points) ++ before, points, points', after, ?_, ?_, hperm⟩
    · simpa using congrArg List.length (client.turns_exchanges early s₀)
    · simp [hreplies]
    · simp [hone]
    · simp [hother]
  · obtain ⟨kind, metric, tags⟩ := k
    obtain ⟨kind', metric', tags'⟩ := k'
    simp only [ne_eq, SeriesKey.mk.injEq]
    tauto

/-- One name as a gauge and as two counters, in two windows: the one counter is
received as if it were alone, and the gauge may be set before it or after. -/
theorem series_do_not_interfere_three_hits :
    let three : Binary64 := .ofNat 3
    let options : DeliveryOptions := ⟨"http://127.0.0.1:47125", .ofMillis 5000⟩
    let backend : Delivery.Backend := .plain "127.0.0.1" 47125 fun _ => .answered 202 []
    let key : SeriesKey := ⟨.count, "hits", ["b", "a"]⟩
    let gauge : Turn := ⟨.ofSeconds 10, .gauge "hits" three ["b", "a"]⟩
    let count : Turn := ⟨.ofSeconds 11, .count "hits" three ["b", "a"]⟩
    let late : List Turn :=
      [⟨.ofSeconds 12, .count "hits" three ["a", "b"]⟩, ⟨.ofSeconds 12, .increment "hits" ["b", "a"]⟩,
        ⟨.ofSeconds 13, .flush⟩, ⟨.ofSeconds 14, .gauge "hits" three []⟩]
    ∃ s₀, SeriesClient.create "web-01" ⟨"secret"⟩ options backend = .ok s₀ ∧
      (attempts (onlyTo key (gauge :: count :: late)) s₀).map (·.points) =
        [[⟨key, .ofNat 4, 11⟩]] ∧
      (client.after (onlyTo key (gauge :: count :: late)) s₀).backend.received =
        [⟨"POST", "/api/v1/series", SeriesClient.headers ⟨"secret"⟩,
          Submission.body "web-01" [⟨key, .ofNat 4, 11⟩]⟩] ∧
      (client.after (onlyTo key (gauge :: count :: late)) s₀).pending = [] ∧
      deliveries (gauge :: count :: late) s₀ ≠ deliveries (count :: gauge :: late) s₀ ∧
      ∃ before points points' after,
        deliveries (gauge :: count :: late) s₀ = before ++ points :: after ∧
        deliveries (count :: gauge :: late) s₀ = before ++ points' :: after ∧ points.Perm points' := by
  intro three options backend key gauge count late
  have hnew : SeriesClient.create "web-01" ⟨"secret"⟩ options backend =
      .ok (.fresh "web-01" options backend ⟨"secret"⟩) :=
    SeriesClient.create_nonblank _ _ _ (by decide)
  obtain ⟨hreceived, halone, hswap, hkeys⟩ := series_do_not_interfere hnew
  obtain ⟨hpending, -, -, hpoints⟩ := halone key (gauge :: count :: late)
  have hne : (⟨.gauge, "hits", ["b", "a"]⟩ : SeriesKey) ≠ key := (hkeys _ _).2 (.inl (by decide))
  obtain ⟨-, -, -, hwindows⟩ := hswap [] late gauge count _ _ rfl rfl hne
  exact ⟨_, hnew, hpoints.trans (by decide +kernel), (hreceived _).trans (by decide +kernel),
    hpending.trans (by decide +kernel), by decide +kernel, hwindows⟩

end MetricStream
