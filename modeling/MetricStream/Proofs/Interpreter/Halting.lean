/-
Where a run stops, and what it has done by then.

A run carries out the first commands of its token list: those before the first
that cannot be read or that the client refuses (`carriedOut`). It reports each
of them once, and nothing else (`events_follow`). Its calls are those of these
commands, and the client accepted each of them; if a refusal ended the run,
there is one call more, the last, and its refusal is the run's error (`Halts`).
-/
import MetricStream.Proofs.Interpreter.Account

namespace MetricStream

/-- The commands that a run carries out, in order. -/
def carriedOut {σ : Type} (ctx : Context) (client : Client σ) : List Phrase → World σ → List Command
  | [], _ => []
  | p :: phrases, w =>
    match p.command ctx with
    | .error _ => []
    | .ok c =>
      match c.deed ctx.tags with
      | .pause d => c :: carriedOut ctx client phrases ⟨w.client, w.now.after d⟩
      | .ask call =>
        match client.answer w.now call w.client with
        | (_, .error _) => []
        | (s, .ok ()) => c :: carriedOut ctx client phrases ⟨s, w.now⟩

/-- The call that a command makes, if it makes one. -/
def Command.call? (tags : List String) (c : Command) : Option Call :=
  match c.deed tags with
  | .ask call => some call
  | .pause _ => none

theorem Command.call?_ask {tags : List String} {c : Command} {call : Call}
    (h : c.deed tags = .ask call) : c.call? tags = some call := by
  simp only [call?, h]

theorem Command.call?_pause {tags : List String} {c : Command} {d : Duration}
    (h : c.deed tags = .pause d) : c.call? tags = none := by
  simp only [call?, h]

/-- The two ways in which a run from the state `s` that carried out commands
with these calls can end: the calls of its trace, and its result. -/
inductive Halts {σ : Type} (client : Client σ) (s : σ) (calls : List Call) :
    List Turn → Except RunError Nat → Prop where
  /-- No call was refused. -/
  | unrefused {turns result} (hcalls : turns.map (·.call) = calls)
    (haccepted : ∀ x ∈ client.exchanges turns s, x.answer = .ok ())
    (hresult : ∀ typed e, result ≠ .error (.commandFailed typed (.client e))) :
    Halts client s calls turns result
  /-- The last call was. -/
  | refused (early : List Turn) (t : Turn) {typed e} (hcalls : early.map (·.call) = calls)
    (haccepted : ∀ x ∈ client.exchanges early s, x.answer = .ok ())
    (hrefused : (client.answer t.now t.call (client.after early s)).2 = .error e) :
    Halts client s calls (early ++ [t]) (.error (.commandFailed typed (.client e)))

section

variable {σ : Type} {ctx : Context} {client : Client σ}

/-! ## The equations of the commands carried out -/

section

variable {p : Phrase} (phrases : List Phrase) {w : World σ}

theorem carriedOut_malformed {e : OperandError} (h : p.command ctx = .error e) :
    carriedOut ctx client (p :: phrases) w = [] := by
  simp only [carriedOut, h]

theorem carriedOut_pause {c : Command} {d : Duration} (h : p.command ctx = .ok c)
    (hd : c.deed ctx.tags = .pause d) :
    carriedOut ctx client (p :: phrases) w =
      c :: carriedOut ctx client phrases ⟨w.client, w.now.after d⟩ := by
  simp only [carriedOut, h, hd]

theorem carriedOut_refused {c : Command} {call : Call} {s : σ} {e : ClientError}
    (h : p.command ctx = .ok c) (hd : c.deed ctx.tags = .ask call)
    (ha : client.answer w.now call w.client = (s, .error e)) :
    carriedOut ctx client (p :: phrases) w = [] := by
  simp only [carriedOut, h, hd, ha]

theorem carriedOut_accepted {c : Command} {call : Call} {s : σ} (h : p.command ctx = .ok c)
    (hd : c.deed ctx.tags = .ask call) (ha : client.answer w.now call w.client = (s, .ok ())) :
    carriedOut ctx client (p :: phrases) w = c :: carriedOut ctx client phrases ⟨s, w.now⟩ := by
  simp only [carriedOut, h, hd, ha]

end

theorem command_of_carriedOut {phrases : List Phrase} {w : World σ} {c : Command}
    (h : c ∈ carriedOut ctx client phrases w) : ∃ p ∈ phrases, p.command ctx = .ok c := by
  induction phrases generalizing w with
  | nil => cases h
  | cons p phrases ih =>
    rcases p.fate ctx client w with ⟨e, hc⟩ | ⟨c', d, hc, hd⟩ | ⟨c', call, s, e | ⟨⟨⟩⟩, hc, hd, ha⟩
    · rw [carriedOut_malformed phrases hc] at h
      cases h
    · rw [carriedOut_pause phrases hc hd, List.mem_cons] at h
      rcases h with rfl | h
      · exact ⟨p, by simp, hc⟩
      · obtain ⟨q, hq, hcommand⟩ := ih h
        exact ⟨q, by simp [hq], hcommand⟩
    · rw [carriedOut_refused phrases hc hd ha] at h
      cases h
    · rw [carriedOut_accepted phrases hc hd ha, List.mem_cons] at h
      rcases h with rfl | h
      · exact ⟨p, by simp, hc⟩
      · obtain ⟨q, hq, hcommand⟩ := ih h
        exact ⟨q, by simp [hq], hcommand⟩

/-! ## What is reported -/

/-- **A run reports the commands that it carries out**, each once, in order. -/
theorem events_follow (ctx : Context) (client : Client σ) (rest : List String)
    (phrases : List Phrase) (w : World σ) :
    (follow ctx client rest phrases w).events =
      (carriedOut ctx client phrases w).map Command.event := by
  induction phrases generalizing w with
  | nil => rfl
  | cons p phrases ih =>
    rcases p.fate ctx client w with ⟨e, hc⟩ | ⟨c, d, hc, hd⟩ | ⟨c, call, s, e | ⟨⟨⟩⟩, hc, hd, ha⟩
    · rw [follow_malformed phrases hc, carriedOut_malformed phrases hc]
      rfl
    · rw [follow_pause phrases hc hd, carriedOut_pause phrases hc hd, Outcome.events_afterOne, ih]
      rfl
    · rw [follow_refused phrases hc hd ha, carriedOut_refused phrases hc hd ha]
      rfl
    · rw [follow_accepted phrases hc hd ha, carriedOut_accepted phrases hc hd ha,
        Outcome.events_afterOne, ih]
      rfl

/-! ## What is called -/

theorem ending_ne_client (rest : List String) (typed : String) (e : ClientError) :
    ending rest ≠ .error (.commandFailed typed (.client e)) := by
  unfold ending
  split
  · simp
  split <;> simp

theorem Halts.counted {s : σ} {calls : List Call} {turns : List Turn} {result : Except RunError Nat}
    (h : Halts client s calls turns result) : Halts client s calls turns (result.map (· + 1)) := by
  cases h with
  | unrefused hcalls haccepted hresult =>
    refine .unrefused hcalls haccepted fun typed e he => ?_
    cases result with
    | error e' => exact hresult typed e he
    | ok n => cases he
  | refused early t hcalls haccepted hrefused => exact .refused early t hcalls haccepted hrefused

theorem Halts.cons {s s' : σ} {calls : List Call} {turns : List Turn} {result : Except RunError Nat}
    {t : Turn} (ha : client.answer t.now t.call s = (s', .ok ()))
    (h : Halts client s' calls turns result) :
    Halts client s (t.call :: calls) (t :: turns) result := by
  obtain rfl : (client.answer t.now t.call s).1 = s' := congrArg Prod.fst ha
  have hfirst : (client.answer t.now t.call s).2 = .ok () := congrArg Prod.snd ha
  cases h with
  | unrefused hcalls haccepted hresult =>
    exact .unrefused (congrArg (t.call :: ·) hcalls)
      (List.forall_mem_cons.2 ⟨hfirst, haccepted⟩) hresult
  | refused early u hcalls haccepted hrefused =>
    exact .refused (t :: early) u (congrArg (t.call :: ·) hcalls)
      (List.forall_mem_cons.2 ⟨hfirst, haccepted⟩) hrefused

/-- **A run calls for what it carries out**, and only its last call can be
refused. -/
theorem follow_halts (ctx : Context) (client : Client σ) (rest : List String)
    (phrases : List Phrase) (w : World σ) :
    Halts client w.client ((carriedOut ctx client phrases w).filterMap (Command.call? ctx.tags))
      (turnsOf w.now (follow ctx client rest phrases w).trace)
      (follow ctx client rest phrases w).result := by
  induction phrases generalizing w with
  | nil => exact .unrefused rfl (List.forall_mem_nil _) (ending_ne_client rest)
  | cons p phrases ih =>
    rcases p.fate ctx client w with ⟨e, hc⟩ | ⟨c, d, hc, hd⟩ | ⟨c, call, s, e | ⟨⟨⟩⟩, hc, hd, ha⟩
    · rw [follow_malformed phrases hc, carriedOut_malformed phrases hc]
      exact .unrefused rfl (List.forall_mem_nil _) (by simp)
    · rw [follow_pause phrases hc hd, carriedOut_pause phrases hc hd,
        List.filterMap_cons_none (Command.call?_pause hd)]
      exact (ih ⟨w.client, w.now.after d⟩).counted
    · rw [follow_refused phrases hc hd ha, carriedOut_refused phrases hc hd ha]
      exact .refused [] ⟨w.now, call⟩ rfl (List.forall_mem_nil _) (congrArg Prod.snd ha)
    · rw [follow_accepted phrases hc hd ha, carriedOut_accepted phrases hc hd ha,
        List.filterMap_cons_some (Command.call?_ask hd)]
      exact (ih ⟨s, w.now⟩).counted.cons (t := ⟨w.now, call⟩) ha

end

end MetricStream
