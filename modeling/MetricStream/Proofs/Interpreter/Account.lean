/-
What a run's trace tells.

The trace has every call and every pause, so it accounts for the world that the
run leaves: the client is where the calls of the trace, each at its time, take
it (`Accounts`). And a run succeeds exactly if its tokens are commands to the
last one that can all be read, and the client accepted every call that the
trace has (`follow_ok_iff`). A run of more commands begins with the run of the
first of them (`follow_append`).
-/
import MetricStream.Proofs.Client.History
import MetricStream.Proofs.Interpreter.Reference

namespace MetricStream

/-- The calls of a trace, each at its point in time. -/
def turnsOf : Instant → List Occurrence → List Turn
  | _, [] => []
  | now, .called call :: trace => ⟨now, call⟩ :: turnsOf now trace
  | now, .logged _ :: trace => turnsOf now trace
  | now, .paused d :: trace => turnsOf (now.after d) trace

/-- The point in time that a trace ends at. -/
def timeAfter : Instant → List Occurrence → Instant
  | now, [] => now
  | now, .called _ :: trace => timeAfter now trace
  | now, .logged _ :: trace => timeAfter now trace
  | now, .paused d :: trace => timeAfter (now.after d) trace

theorem turnsOf_append (now : Instant) (xs ys : List Occurrence) :
    turnsOf now (xs ++ ys) = turnsOf now xs ++ turnsOf (timeAfter now xs) ys := by
  induction xs generalizing now with
  | nil => rfl
  | cons x xs ih =>
    cases x with
    | called call => exact congrArg (_ :: ·) (ih now)
    | logged event => exact ih now
    | paused d => exact ih (now.after d)

theorem timeAfter_append (now : Instant) (xs ys : List Occurrence) :
    timeAfter now (xs ++ ys) = timeAfter (timeAfter now xs) ys := by
  induction xs generalizing now with
  | nil => rfl
  | cons x xs ih =>
    cases x with
    | called call => exact ih now
    | logged event => exact ih now
    | paused d => exact ih (now.after d)

theorem calls_turnsOf (now : Instant) (trace : List Occurrence) :
    (turnsOf now trace).map (·.call) = trace.filterMap Occurrence.call? := by
  induction trace generalizing now with
  | nil => rfl
  | cons x trace ih =>
    cases x with
    | called call => exact congrArg (call :: ·) (ih now)
    | logged event => exact ih now
    | paused d => exact ih (now.after d)

/-- The trace tells how the one world became the other. -/
structure Accounts {σ : Type} (client : Client σ) (w : World σ) (trace : List Occurrence)
    (w' : World σ) : Prop where
  client_eq : w'.client = client.after (turnsOf w.now trace) w.client
  now_eq : w'.now = timeAfter w.now trace

section

variable {σ : Type} {ctx : Context} {client : Client σ}

theorem Accounts.nil (w : World σ) : Accounts client w [] w := ⟨rfl, rfl⟩

theorem Accounts.append {w w' w'' : World σ} {xs ys : List Occurrence}
    (h : Accounts client w xs w') (h' : Accounts client w' ys w'') :
    Accounts client w (xs ++ ys) w'' := by
  constructor
  · rw [turnsOf_append, client.after_append, ← h.now_eq, ← h.client_eq]
    exact h'.client_eq
  · rw [timeAfter_append, ← h.now_eq]
    exact h'.now_eq

theorem Accounts.called {w : World σ} {call : Call} {s : σ} {answer : Except ClientError Unit}
    (ha : client.answer w.now call w.client = (s, answer)) :
    Accounts client w [.called call] ⟨s, w.now⟩ := by
  refine ⟨?_, rfl⟩
  simp only [turnsOf, Client.after, ha]

/-- **The trace accounts for the run.** -/
theorem follow_accounts (ctx : Context) (client : Client σ) (rest : List String)
    (phrases : List Phrase) (w : World σ) :
    Accounts client w (follow ctx client rest phrases w).trace
      (follow ctx client rest phrases w).world := by
  induction phrases generalizing w with
  | nil => exact .nil w
  | cons p phrases ih =>
    rcases p.fate ctx client w with ⟨e, hc⟩ | ⟨c, d, hc, hd⟩ | ⟨c, call, s, e | ⟨⟨⟩⟩, hc, hd, ha⟩
    · rw [follow_malformed phrases hc]
      exact .nil w
    · rw [follow_pause phrases hc hd]
      have hpause : Accounts client w [.logged c.event, .paused d] ⟨w.client, w.now.after d⟩ :=
        ⟨rfl, rfl⟩
      exact hpause.append (ih _)
    · rw [follow_refused phrases hc hd ha]
      exact .called ha
    · rw [follow_accepted phrases hc hd ha]
      have hlog : Accounts client ⟨s, w.now⟩ [.logged c.event] ⟨s, w.now⟩ := ⟨rfl, rfl⟩
      exact ((Accounts.called ha).append hlog).append (ih _)

/-! ## Runs that succeed -/

theorem ending_eq_ok {rest : List String} {n : Nat} : ending rest = .ok n ↔ rest = [] ∧ n = 0 := by
  rcases rest with _ | ⟨token, left⟩
  · simp [ending, eq_comm]
  · rw [ending]
    rcases Verb.lookup? token with _ | verb <;> simp

theorem Outcome.afterOne_eq_ok {trace : List Occurrence} {o : Outcome σ RunError Nat} {n : Nat} :
    (o.afterOne trace).result = .ok n ↔ ∃ m, o.result = .ok m ∧ n = m + 1 := by
  rcases hr : o.result with e | m <;> simp [Outcome.afterOne, hr, Except.map, eq_comm]

theorem map_eq_error {ε α β : Type} {f : α → β} {x : Except ε α} {e : ε} :
    x.map f = .error e ↔ x = .error e := by
  cases x <;> simp [Except.map]

/-- The tokens are commands to the last one, so many, and each can be read. -/
def Complete (ctx : Context) (rest : List String) (phrases : List Phrase) (n : Nat) : Prop :=
  rest = [] ∧ n = phrases.length ∧ ∀ p ∈ phrases, ∃ c, p.command ctx = .ok c

theorem complete_cons {rest : List String} {p : Phrase} {phrases : List Phrase} {n : Nat} {c : Command}
    (hc : p.command ctx = .ok c) :
    Complete ctx rest (p :: phrases) n ↔ ∃ m, Complete ctx rest phrases m ∧ n = m + 1 := by
  constructor
  · rintro ⟨hrest, rfl, hread⟩
    exact ⟨phrases.length, ⟨hrest, rfl, fun q hq => hread q (by simp [hq])⟩, rfl⟩
  · rintro ⟨m, ⟨hrest, rfl, hread⟩, rfl⟩
    refine ⟨hrest, rfl, fun q hq => ?_⟩
    rcases List.mem_cons.1 hq with rfl | hq
    · exact ⟨c, hc⟩
    · exact hread q hq

theorem complete_cut {tokens : List String} {n : Nat} :
    Complete ctx (cut tokens).2 (cut tokens).1 n ↔
      ∃ phrases, Cut tokens phrases [] ∧ phrases.length = n ∧
        ∀ p ∈ phrases, ∃ c, p.command ctx = .ok c := by
  constructor
  · rintro ⟨hrest, rfl, hread⟩
    exact ⟨(cut tokens).1, cut_iff.2 (by rw [← hrest]), rfl, hread⟩
  · rintro ⟨phrases, hcut, rfl, hread⟩
    rw [hcut.eq]
    exact ⟨rfl, rfl, hread⟩

/-- **When a run succeeds.** It does exactly if the tokens are commands to the
last one that can all be read, and every call that was made was accepted. -/
theorem follow_ok_iff {rest : List String} {phrases : List Phrase} {w : World σ} {n : Nat} :
    (follow ctx client rest phrases w).result = .ok n ↔
      Complete ctx rest phrases n ∧
      ∀ x ∈ client.exchanges (turnsOf w.now (follow ctx client rest phrases w).trace) w.client,
        x.answer = .ok () := by
  induction phrases generalizing w n with
  | nil => simp [follow, ending_eq_ok, Complete, turnsOf, Client.exchanges]
  | cons p phrases ih =>
    rcases p.fate ctx client w with ⟨e, hc⟩ | ⟨c, d, hc, hd⟩ | ⟨c, call, s, e | ⟨⟨⟩⟩, hc, hd, ha⟩
    · rw [follow_malformed phrases hc]
      simp [Complete, hc]
    · rw [follow_pause phrases hc hd, Outcome.afterOne_eq_ok, complete_cons hc]
      simp only [ih, and_right_comm, exists_and_right]
      rfl
    · rw [follow_refused phrases hc hd ha]
      simp [turnsOf, Client.exchanges, ha]
    · rw [follow_accepted phrases hc hd ha, Outcome.afterOne_eq_ok, complete_cons hc]
      simp only [ih, and_right_comm, exists_and_right]
      simp [Outcome.afterOne, turnsOf, Client.exchanges, ha]

/-! ## Runs one after the other -/

/-- The outcome, and if it is a success what comes of the world it leaves. -/
def Outcome.andThen (o : Outcome σ RunError Nat) (next : World σ → Outcome σ RunError Nat) :
    Outcome σ RunError Nat :=
  match o.result with
  | .error _ => o
  | .ok m =>
    ⟨(next o.world).result.map (· + m), o.trace ++ (next o.world).trace, (next o.world).world⟩

theorem Outcome.andThen_error {o : Outcome σ RunError Nat} {e : RunError}
    (h : o.result = .error e) (next : World σ → Outcome σ RunError Nat) : o.andThen next = o := by
  simp only [andThen, h]

theorem Outcome.andThen_ok {o : Outcome σ RunError Nat} {m : Nat} (h : o.result = .ok m)
    (next : World σ → Outcome σ RunError Nat) :
    o.andThen next =
      ⟨(next o.world).result.map (· + m), o.trace ++ (next o.world).trace, (next o.world).world⟩ := by
  simp only [andThen, h]

theorem Outcome.afterOne_andThen (trace : List Occurrence) (o : Outcome σ RunError Nat)
    (next : World σ → Outcome σ RunError Nat) :
    (o.afterOne trace).andThen next = (o.andThen next).afterOne trace := by
  rcases hr : o.result with e | m
  · simp [andThen, afterOne, hr, Except.map]
  · rcases hn : (next o.world).result with e | k <;>
      simp [andThen, afterOne, hr, hn, Except.map, Nat.add_assoc]

/-- A run of more commands begins with the run of the first of them. -/
theorem follow_append (rest : List String) (ps qs : List Phrase) (w : World σ) :
    follow ctx client rest (ps ++ qs) w =
      (follow ctx client [] ps w).andThen (follow ctx client rest qs) := by
  induction ps generalizing w with
  | nil =>
    show _ = Outcome.mk ((follow ctx client rest qs w).result.map (· + 0)) _ _
    rcases hr : (follow ctx client rest qs w).result with e | m
    · exact congrArg (Outcome.mk · _ _) hr
    · exact congrArg (Outcome.mk · _ _) hr
  | cons p ps ih =>
    rcases p.fate ctx client w with ⟨e, hc⟩ | ⟨c, d, hc, hd⟩ | ⟨c, call, s, e | ⟨⟨⟩⟩, hc, hd, ha⟩
    · rw [List.cons_append, follow_malformed _ hc, follow_malformed _ hc]
      rfl
    · rw [List.cons_append, follow_pause _ hc hd, follow_pause _ hc hd, ih, Outcome.afterOne_andThen]
    · rw [List.cons_append, follow_refused _ hc hd ha, follow_refused _ hc hd ha]
      rfl
    · rw [List.cons_append, follow_accepted _ hc hd ha, follow_accepted _ hc hd ha, ih,
        Outcome.afterOne_andThen]

theorem cut_of_interpret_ok {tokens : List String} {w : World σ} {n : Nat}
    (h : (interpret ctx client tokens w).result = .ok n) : Cut tokens (cut tokens).1 [] := by
  have hcut := cut_spec tokens
  rw [interpret_eq_follow hcut, follow_ok_iff] at h
  rwa [h.1.1] at hcut

/-- After a run that succeeds, the tokens behind its own are interpreted as if
they were alone. -/
theorem interpret_append {xs : List String} {w : World σ} {n : Nat}
    (h : (interpret ctx client xs w).result = .ok n) (ys : List String) :
    interpret ctx client (xs ++ ys) w =
      (interpret ctx client xs w).andThen (interpret ctx client ys) := by
  have hxs := cut_of_interpret_ok h
  have hys : interpret ctx client ys = follow ctx client (cut ys).2 (cut ys).1 :=
    funext (interpret_eq_follow (cut_spec ys))
  rw [interpret_eq_follow (hxs.append (cut_spec ys)), interpret_eq_follow hxs, hys, follow_append]

end

end MetricStream
