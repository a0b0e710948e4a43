/-
Runs of tokens in two parts.

The first part decides what becomes of the second. If its run succeeds, the run
of both goes on with the second part from the world that it leaves; if it fails,
the run of both is over where it was over, and no token of the second part is
looked at. There is one exception: a command that the end of the first part cuts
short may be whole with what follows. Even then the run of both begins with what
happens in the run of the first (`runs_compose`).
-/
import MetricStream.Client.Recorder
import MetricStream.Proofs.Interpreter.Account
import MetricStream.Proofs.Interpreter.Malformed

namespace MetricStream

/-- The tokens ran out before a command had its operands. -/
def RunError.CutShort (e : RunError) : Prop :=
  ∃ typed expected found, e = .commandFailed typed (.operand (.missing expected found))

/-- Tokens that no command starts, and that are more than the beginning of one,
start with an unknown word. -/
theorem unknown_of_ending {rest : List String} {e : RunError} (h : ending rest = .error e)
    (hwhole : ¬ e.CutShort) : ∃ token left, rest = token :: left ∧ Verb.lookup? token = none := by
  unfold ending at h
  split at h
  · cases h
  next token left =>
  split at h
  · next hv => exact ⟨token, left, rfl, hv⟩
  · next verb hv =>
    cases h
    exact absurd ⟨token, verb.arity, left.length, rfl⟩ hwhole

section

variable {σ : Type} {ctx : Context} {client : Client σ}

/-- More tokens leave the commands of a list alone: they are carried out first,
and then what is left of the list is interpreted with what follows it. -/
theorem interpret_append_cut (xs ys : List String) (w : World σ) :
    interpret ctx client (xs ++ ys) w =
      (follow ctx client [] (cut xs).1 w).andThen (interpret ctx client ((cut xs).2 ++ ys)) := by
  have hxs := cut_spec xs
  have hcommands : Cut ((cut xs).1.flatMap Phrase.tokens) (cut xs).1 [] :=
    ⟨(List.append_nil _).symm, hxs.whole, stuck_nil⟩
  have hboth := hcommands.append (cut_spec ((cut xs).2 ++ ys))
  rw [← List.append_assoc, ← hxs.tokens_eq] at hboth
  have hleft : interpret ctx client ((cut xs).2 ++ ys) = follow ctx client _ _ :=
    funext (interpret_eq_follow (cut_spec ((cut xs).2 ++ ys)))
  rw [interpret_eq_follow hboth, follow_append, hleft]

/-- A run is that of its commands, and then it ends as what is left does. -/
theorem interpret_commands (xs : List String) (w : World σ) :
    interpret ctx client xs w =
      (follow ctx client [] (cut xs).1 w).andThen fun w' => ⟨ending (cut xs).2, [], w'⟩ := by
  have hleft : interpret ctx client (cut xs).2 = fun w' => ⟨ending (cut xs).2, [], w'⟩ :=
    funext (interpret_stuck (cut_spec xs).stuck)
  rw [← hleft]
  simpa only [List.append_nil] using interpret_append_cut xs [] w

/-- **A run that fails looks no further**, unless what it lacks are operands. -/
theorem interpret_append_of_error {xs : List String} {w : World σ} {e : RunError}
    (h : (interpret ctx client xs w).result = .error e) (hwhole : ¬ e.CutShort) (ys : List String) :
    interpret ctx client (xs ++ ys) w = interpret ctx client xs w := by
  rw [interpret_commands] at h
  rw [interpret_append_cut, interpret_commands]
  rcases hr : (follow ctx client [] (cut xs).1 w).result with e' | m
  · rw [Outcome.andThen_error hr, Outcome.andThen_error hr]
  · rw [Outcome.andThen_ok hr] at h
    obtain ⟨token, left, hrest, hv⟩ := unknown_of_ending (map_eq_error.1 h) hwhole
    have hleft : interpret ctx client ((cut xs).2 ++ ys) = fun w' => ⟨ending (cut xs).2, [], w'⟩ := by
      funext w'
      rw [hrest, List.cons_append, interpret_of_malformed (.unknown hv), ending, hv]
    rw [hleft]

/-- **What happens in a run happens first in a run of more tokens**, however the
one ends. -/
theorem trace_prefix_append (ctx : Context) (client : Client σ) (xs ys : List String) (w : World σ) :
    (interpret ctx client xs w).trace <+: (interpret ctx client (xs ++ ys) w).trace := by
  rw [interpret_commands, interpret_append_cut]
  rcases hr : (follow ctx client [] (cut xs).1 w).result with e | m
  · refine ⟨[], ?_⟩
    rw [List.append_nil, Outcome.andThen_error hr, Outcome.andThen_error hr]
  · rw [Outcome.andThen_ok hr, Outcome.andThen_ok hr, List.append_nil]
    exact List.prefix_append _ _

end

/-- **Runs compose.** The run of two parts, with any client, is the run of the
first and then the run of the second from the world that the first leaves, if the
first succeeds: its calls are theirs, one after the other, the numbers of their
commands add up, and it fails as the second does. If the first fails, it is all
that there is of the run of both, unless a command was cut short; then the run
of both still begins with what happens in the first. -/
theorem runs_compose {σ : Type} (ctx : Context) (client : Client σ) (xs ys : List String)
    (w : World σ) :
    let first := interpret ctx client xs w
    let second := interpret ctx client ys first.world
    let whole := interpret ctx client (xs ++ ys) w
    (∀ n, first.result = .ok n →
      whole.calls = first.calls ++ second.calls ∧
      (∀ m, second.result = .ok m → whole.result = .ok (n + m)) ∧
      (∀ e, second.result = .error e → whole.result = .error e) ∧
      whole.trace = first.trace ++ second.trace ∧ whole.world = second.world) ∧
    (∀ e, first.result = .error e → ¬ e.CutShort →
      whole.calls = first.calls ∧ whole.result = .error e ∧ whole = first) ∧
    (∀ e, first.result = .error e → e.CutShort → first.trace <+: whole.trace) := by
  intro first second whole
  refine ⟨fun n hn => ?_, fun e he hwhole => ?_, fun e _ _ => trace_prefix_append ctx client xs ys w⟩
  · have happend : whole =
        ⟨second.result.map (· + n), first.trace ++ second.trace, second.world⟩ :=
      (interpret_append hn ys).trans (Outcome.andThen_ok hn _)
    rw [happend]
    refine ⟨List.filterMap_append, fun m hm => ?_, fun e he => ?_, rfl, rfl⟩
    · simp only [hm, Except.map, Nat.add_comm]
    · simp only [he, Except.map]
  · have hsame : whole = first := interpret_append_of_error he hwhole ys
    exact ⟨by rw [hsame], by rw [hsame, he], hsame⟩

/-- The client refuses the flush, which is the last command of the second part;
and a value that is no number ends the run whatever comes after it. -/
theorem runs_compose_refused_flush :
    let client := Recorder.client (.byKind true false)
    let w : World Recorder := ⟨Recorder.start, .ofSeconds 10⟩
    let xs := ["incr", "hits", "sleep", "1500ms", "gauge", "load", "2"]
    let xs' := ["incr", "hits", "count", "hits", "NaN"]
    let ys := ["d", "hits", "flush"]
    (interpret .bare client xs w).result = .ok 3 ∧
    (interpret .bare client (xs ++ ys) w).calls =
      [.increment "hits" [], .gauge "load" (.ofNat 2) []] ++ [.decrement "hits" [], .flush] ∧
    (interpret .bare client (xs ++ ys) w).result =
      .error (.commandFailed "flush" (.client (.status 503 "unavailable"))) ∧
    (interpret .bare client (xs' ++ ys) w).calls = [.increment "hits" []] ∧
    (interpret .bare client (xs' ++ ys) w).result =
      .error (.commandFailed "count" (.operand (.nonFinite "NaN"))) := by
  intro client w xs xs' ys
  have hxs : (interpret .bare client xs w).result = .ok 3 := by decide +kernel
  have hxs' : (interpret .bare client xs' w).result =
      .error (.commandFailed "count" (.operand (.nonFinite "NaN"))) := by decide +kernel
  have hwhole : ¬ (RunError.commandFailed "count" (.operand (.nonFinite "NaN"))).CutShort := by
    rintro ⟨typed, expected, found, h⟩
    cases h
  obtain ⟨hcalls, -, herror, -⟩ := (runs_compose .bare client xs ys w).1 3 hxs
  obtain ⟨hcalls', hresult', -⟩ := (runs_compose .bare client xs' ys w).2.1 _ hxs' hwhole
  refine ⟨hxs, hcalls.trans ?_, herror _ ?_, hcalls'.trans ?_, hresult'⟩ <;> decide +kernel

/-- What follows can make a command whole that was cut short. -/
example :
    let w : World Recorder := ⟨Recorder.start, .ofSeconds 10⟩
    let client := Recorder.client fun _ _ => none
    (interpret .bare client ["flush", "count", "hits"] w).result =
      .error (.commandFailed "count" (.operand (.missing 2 1))) ∧
    (interpret .bare client (["flush", "count", "hits"] ++ ["3"]) w).result = .ok 2 := by
  decide +kernel

end MetricStream
