/-
What a client is asked over time, and what it answers.

A client is a state machine, so a list of calls with their points in time
decides its state and its answers. What a call is answered depends on the calls
before it and on none after it (`exchanges_append`).
-/
import MetricStream.Client
import MetricStream.Series

namespace MetricStream

/-- A call at a point in time. -/
structure Turn where
  now : Instant
  call : Call

/-- A call as it went. -/
structure Exchange where
  turn : Turn
  answer : Except ClientError Unit

/-- The write that a call asks for. An increment writes one to a counter, a
decrement minus one. -/
def Turn.write? (t : Turn) : Option Write :=
  match t.call with
  | .gauge metric value tags => some ⟨⟨.gauge, metric, tags⟩, value, t.now.seconds⟩
  | .count metric value tags => some ⟨⟨.count, metric, tags⟩, value, t.now.seconds⟩
  | .increment metric tags => some ⟨⟨.count, metric, tags⟩, .unit, t.now.seconds⟩
  | .decrement metric tags => some ⟨⟨.count, metric, tags⟩, -.unit, t.now.seconds⟩
  | .flush => none
  | .close => none

theorem Turn.write?_eq_none {t : Turn} : t.write? = none ↔ t.call = .flush ∨ t.call = .close := by
  cases hc : t.call <;> simp [write?, hc]

/-- The write that was asked for, if it was accepted. -/
def Exchange.accepted? (x : Exchange) : Option Write :=
  match x.answer with
  | .ok () => x.turn.write?
  | .error _ => none

theorem Exchange.accepted?_eq_none {x : Exchange} (h : x.turn.write? = none) :
    x.accepted? = none := by
  unfold accepted?
  split
  · exact h
  · rfl

namespace Client

variable {σ : Type} (client : Client σ)

/-- The state after the calls. -/
def after : List Turn → σ → σ
  | [], s => s
  | t :: turns, s => after turns (client.answer t.now t.call s).1

/-- The calls as they went. -/
def exchanges : List Turn → σ → List Exchange
  | [], _ => []
  | t :: turns, s =>
    ⟨t, (client.answer t.now t.call s).2⟩ :: exchanges turns (client.answer t.now t.call s).1

theorem turns_exchanges (turns : List Turn) (s : σ) :
    (client.exchanges turns s).map (·.turn) = turns := by
  induction turns generalizing s with
  | nil => rfl
  | cons t turns ih => exact congrArg (t :: ·) (ih _)

/-- Where every call was accepted, the calls tell how they went. -/
theorem exchanges_accepted {turns : List Turn} {s : σ}
    (h : ∀ x ∈ client.exchanges turns s, x.answer = .ok ()) :
    client.exchanges turns s = turns.map (⟨·, .ok ()⟩) := by
  induction turns generalizing s with
  | nil => rfl
  | cons t turns ih =>
    rw [exchanges, List.forall_mem_cons] at h
    have hfirst : (client.answer t.now t.call s).2 = .ok () := h.1
    rw [exchanges, List.map_cons, ih h.2, hfirst]

theorem after_append (xs ys : List Turn) (s : σ) :
    client.after (xs ++ ys) s = client.after ys (client.after xs s) := by
  induction xs generalizing s with
  | nil => rfl
  | cons t xs ih => exact ih _

theorem exchanges_append (xs ys : List Turn) (s : σ) :
    client.exchanges (xs ++ ys) s =
      client.exchanges xs s ++ client.exchanges ys (client.after xs s) := by
  induction xs generalizing s with
  | nil => rfl
  | cons t xs ih => exact congrArg (_ :: ·) (ih _)

end Client

end MetricStream
