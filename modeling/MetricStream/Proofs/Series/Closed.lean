/-
The buffering client once it is closed.

Closing empties the buffer, whether or not what was in it could be delivered, and
no later call can fill it: it refuses all but another close. So a closed client
stays as it is, whatever it is asked, and nothing is submitted any more
(`closed_is_final`).
-/
import MetricStream.Proofs.Series.Posting

namespace MetricStream.SeriesClient

/-- If the client is closed, it holds no points. -/
def Settled (s : SeriesClient) : Prop := s.closed = true → s.pending = []

theorem settled_create {host : String} {key : ApiKey} {options : DeliveryOptions}
    {backend : Delivery.Backend} {s : SeriesClient} (h : create host key options backend = .ok s) :
    s.Settled :=
  fun _ => (create_fresh h).1

theorem Settled.answer {s : SeriesClient} (h : s.Settled) (t : Turn) :
    (client.answer t.now t.call s).1.Settled := by
  intro hclosed
  rw [closed_answer, Bool.or_eq_true, decide_eq_true_eq] at hclosed
  rw [pending_answer]
  cases hw : t.write? with
  | some w =>
    have hcall : t.call ≠ .close := fun hc => by simp [Turn.write?, hc] at hw
    have hs : s.closed = true := hclosed.resolve_right hcall
    simp [hs, h hs]
  | none =>
    cases hs : s.closed with
    | false => rfl
    | true => exact h hs

theorem Settled.after {s : SeriesClient} (h : s.Settled) (turns : List Turn) :
    (client.after turns s).Settled := by
  induction turns generalizing s with
  | nil => exact h
  | cons t turns ih => exact ih (h.answer t)

theorem closed_after_close (turns : List Turn) (now : Instant) (s : SeriesClient) :
    (client.after (turns ++ [⟨now, .close⟩]) s).closed = true := by
  have hlast := closed_answer ⟨now, .close⟩ (client.after turns s)
  rw [client.after_append]
  exact hlast.trans (Bool.or_true _)

/-! ## What a closed client does -/

section

variable {s : SeriesClient} (h : s.closed = true)
include h

theorem answer_of_closed (t : Turn) :
    client.answer t.now t.call s = (s, if t.call = .close then .ok () else .error .closed) := by
  cases hw : t.write? with
  | some w =>
    have hcall : t.call ≠ .close := fun hc => by simp [Turn.write?, hc] at hw
    rw [answer_write hw, if_pos h, if_neg hcall]
  | none => exact answer_closed hw h

/-- **A closed client stays as it is**, whatever it is asked. -/
theorem after_of_closed (turns : List Turn) : client.after turns s = s := by
  induction turns with
  | nil => rfl
  | cons t turns ih => rw [Client.after, answer_of_closed h, ih]

theorem exchanges_of_closed (turns : List Turn) :
    client.exchanges turns s =
      turns.map fun t => ⟨t, if t.call = .close then .ok () else .error .closed⟩ := by
  induction turns with
  | nil => rfl
  | cons t turns ih => rw [Client.exchanges, answer_of_closed h, ih, List.map_cons]

theorem attempts_of_closed (turns : List Turn) : attempts turns s = [] := by
  induction turns with
  | nil => rfl
  | cons t turns ih =>
    rw [attempts, attempt?_closed h, answer_of_closed h, ih]
    rfl

end

/-- **Closed is final.** Whatever a new client was asked, and however its close
went: from then on it attempts no submission and its backend receives nothing, it
holds no points and stays as the close left it, and it refuses every call but a
close, which it accepts. -/
theorem closed_is_final {host : String} {key : ApiKey} {options : DeliveryOptions}
    {backend : Delivery.Backend} {s : SeriesClient}
    (hnew : create host key options backend = .ok s) (early late : List Turn) (now : Instant) :
    let shut := client.after (early ++ [⟨now, .close⟩]) s
    attempts late shut = [] ∧
    (client.after late shut).backend.received = shut.backend.received ∧
    (client.after late shut).pending = [] ∧
    client.after late shut = shut ∧
    client.exchanges late shut =
      late.map fun t => ⟨t, if t.call = .close then .ok () else .error .closed⟩ := by
  intro shut
  have hclosed : shut.closed = true := closed_after_close early now s
  have hempty : shut.pending = [] := (settled_create hnew).after _ hclosed
  have hstays : client.after late shut = shut := after_of_closed hclosed late
  refine ⟨attempts_of_closed hclosed late, ?_, ?_, hstays, exchanges_of_closed hclosed late⟩
  · rw [hstays]
  · rw [hstays, hempty]

/-- The backend refuses what the close submits. After it a value that is no number
is refused as everything else is, and nothing more is received. -/
theorem closed_is_final_refused_close :
    let options : DeliveryOptions := ⟨"http://127.0.0.1:47125", .ofMillis 5000⟩
    let backend : Delivery.Backend := .plain "127.0.0.1" 47125 fun _ => .answered 503 []
    let now : Instant := .ofSeconds 10
    let early : List Turn := [⟨now, .increment "hits" []⟩]
    let late : List Turn := [⟨now, .gauge "load" .nan []⟩, ⟨now, .decrement "hits" []⟩,
      ⟨now, .flush⟩, ⟨now, .close⟩]
    ∃ s : SeriesClient, create "web-01" ⟨"secret"⟩ options backend = .ok s ∧
      (client.answer now .close (client.after early s)).2 = .error (.status 503 "") ∧
      let shut := client.after (early ++ [⟨now, .close⟩]) s
      shut.backend.received.length = 1 ∧
      (client.after late shut).backend.received = shut.backend.received ∧
      (client.exchanges late shut).map (·.answer) =
        [.error .closed, .error .closed, .error .closed, .ok ()] := by
  intro options backend now early late
  have hnew : create "web-01" ⟨"secret"⟩ options backend =
      .ok (.fresh "web-01" options backend ⟨"secret"⟩) :=
    create_nonblank _ _ _ (by decide)
  refine ⟨_, hnew, by decide +kernel, ?_⟩
  obtain ⟨-, hreceived, -, -, hanswers⟩ := closed_is_final hnew early late now
  refine ⟨by decide +kernel, hreceived, ?_⟩
  rw [hanswers]
  rfl

end MetricStream.SeriesClient
