/-
Token lists that say the same in other words.

If the commands of two lists do the same to every world, place by place, the runs
do the same: they end in one world and for one cause (`interpret_matches`). What
the lists are told apart by is how commands are reported, and the token that an
error names. This is the token at the place where the run stopped
(`typed_of_interpret`), so each run's error has its own.
-/
import MetricStream.Proofs.Interpreter.Report

namespace MetricStream

/-- Why a command failed, without the token that it starts with. An unknown one
has no cause besides. -/
def RunError.cause? : RunError → Option CommandError
  | .unknownCommand _ => none
  | .commandFailed _ cause => some cause

/-- The tokens that stand where commands start. After the last command this is
the token that starts none. -/
def commandTokens (tokens : List String) : List String :=
  (cut tokens).1.map (·.typed) ++ (cut tokens).2.head?.toList

/-- A call as the client without a way of its own to increment and decrement sees
it, and an event as it would be reported of this call. -/
def Occurrence.asCount : Occurrence → Occurrence
  | .called call => .called call.asCount
  | .logged (.incr metric) => .logged (.count metric .unit)
  | .logged (.decr metric) => .logged (.count metric (-.unit))
  | occurrence => occurrence

/-- The runs come to the same, each with its own name for the command that failed.
What happened in them looks the same through `view`. -/
structure Outcome.Matches {σ : Type} (view : Occurrence → Occurrence)
    (o o' : Outcome σ RunError Nat) : Prop where
  cause : o'.result.mapError RunError.cause? = o.result.mapError RunError.cause?
  trace : o'.trace.map view = o.trace.map view
  world : o'.world = o.world

/-- Carried out in this world, the commands do the same. -/
structure Command.Matches {σ : Type} (client : Client σ) (tags : List String)
    (view : Occurrence → Occurrence) (c c' : Command) (w : World σ) : Prop where
  result : (c'.perform client tags w).result = (c.perform client tags w).result
  trace : (c'.perform client tags w).trace.map view = (c.perform client tags w).trace.map view
  world : (c'.perform client tags w).world = (c.perform client tags w).world

/-- The phrases spell matching commands, or none for the same reason. -/
inductive Phrase.Matches {σ : Type} (ctx : Context) (client : Client σ)
    (view : Occurrence → Occurrence) (p q : Phrase) : Prop where
  | malformed {e} (hp : p.command ctx = .error e) (hq : q.command ctx = .error e)
  | command {c c'} (hp : p.command ctx = .ok c) (hq : q.command ctx = .ok c')
    (h : ∀ w, c.Matches client ctx.tags view c' w)

section

variable {σ : Type} {ctx : Context} {client : Client σ} {view : Occurrence → Occurrence}

/-! ## The token that an error names -/

theorem typed_of_ending {rest : List String} {e : RunError} (h : ending rest = .error e) :
    rest.head? = some e.typed := by
  rcases rest with _ | ⟨token, left⟩
  · cases h
  rw [ending] at h
  rcases hv : Verb.lookup? token with _ | verb <;> rw [hv] at h <;> cases h <;> rfl

theorem typed_of_follow {rest : List String} {phrases : List Phrase} {w : World σ} {e : RunError}
    (h : (follow ctx client rest phrases w).result = .error e) :
    (phrases.map (·.typed) ++ rest.head?.toList)[(follow ctx client rest phrases w).events.length]? =
      some e.typed := by
  induction phrases generalizing w with
  | nil =>
    rw [List.map_nil, List.nil_append, typed_of_ending h]
    rfl
  | cons p phrases ih =>
    rcases p.fate ctx client w with ⟨e', hc⟩ | ⟨c, d, hc, hd⟩ | ⟨c, call, s, e' | ⟨⟨⟩⟩, hc, hd, ha⟩
    · rw [follow_malformed phrases hc] at h ⊢
      cases h
      rfl
    · rw [follow_pause phrases hc hd] at h ⊢
      rw [Outcome.events_afterOne, List.length_append, Nat.add_comm]
      exact ih (map_eq_error.1 h)
    · rw [follow_refused phrases hc hd ha] at h ⊢
      cases h
      rfl
    · rw [follow_accepted phrases hc hd ha] at h ⊢
      rw [Outcome.events_afterOne, List.length_append, Nat.add_comm]
      exact ih (map_eq_error.1 h)

/-- **An error names the token of the command that failed**: the commands before
it, and no others, were reported. -/
theorem typed_of_interpret {tokens : List String} {w : World σ} {e : RunError}
    (h : (interpret ctx client tokens w).result = .error e) :
    (commandTokens tokens)[(interpret ctx client tokens w).events.length]? = some e.typed := by
  rw [interpret_eq_follow (cut_spec tokens)] at h ⊢
  exact typed_of_follow h

/-! ## Runs of matching commands -/

theorem Outcome.Matches.refl (o : Outcome σ RunError Nat) : o.Matches view o := ⟨rfl, rfl, rfl⟩

theorem mapError_map {ε δ α β : Type} (f : ε → δ) (g : α → β) (x : Except ε α) :
    (x.map g).mapError f = (x.mapError f).map g := by
  cases x <;> rfl

theorem Outcome.Matches.afterOne {o o' : Outcome σ RunError Nat} (h : o.Matches view o')
    {trace trace' : List Occurrence} (htrace : trace'.map view = trace.map view) :
    (o.afterOne trace).Matches view (o'.afterOne trace') := by
  refine ⟨?_, ?_, h.world⟩
  · simp only [Outcome.afterOne, mapError_map, h.cause]
  · simp only [Outcome.afterOne, List.map_append, htrace, h.trace]

theorem Outcome.Matches.eq_ok_iff {o o' : Outcome σ RunError Nat} (h : o.Matches view o') {n : Nat} :
    o'.result = .ok n ↔ o.result = .ok n := by
  have hcause := h.cause
  revert hcause
  rcases o.result with e | m <;> rcases o'.result with e' | m' <;> simp +contextual [Except.mapError]

theorem Phrase.matches_of_command_eq {p q : Phrase} (h : q.command ctx = p.command ctx) :
    p.Matches ctx client view q := by
  rcases hp : p.command ctx with e | c
  · exact .malformed hp (h.trans hp)
  · exact .command hp (h.trans hp) fun w => ⟨rfl, rfl, rfl⟩

/-- **One command more.** If the commands at the front match, and the runs of what
is left do from any world, then the runs match. -/
theorem interpret_matches {p q : Phrase} (hp : p.Whole) (hq : q.Whole)
    (h : p.Matches ctx client view q) {xs ys : List String}
    (hrest : ∀ w, (interpret ctx client xs w).Matches view (interpret ctx client ys w))
    (w : World σ) :
    (interpret ctx client (p.tokens ++ xs) w).Matches view
      (interpret ctx client (q.tokens ++ ys) w) := by
  cases h with
  | malformed hpc hqc =>
    rw [interpret_malformed hp xs w hpc, interpret_malformed hq ys w hqc]
    exact ⟨rfl, rfl, rfl⟩
  | @command c c' hpc hqc hc =>
    rw [interpret_command hp xs w hpc, interpret_command hq ys w hqc, (hc w).result, (hc w).world]
    rcases (c.perform client ctx.tags w).result with e | ⟨⟨⟩⟩
    · exact ⟨rfl, (hc w).trace, rfl⟩
    · exact (hrest _).afterOne (hc w).trace

end

/-! ## Verbs spelt otherwise -/

/-- The lists differ in how verbs are spelt where commands start, and in nothing
else. -/
inductive Respelt : List String → List String → Prop where
  | nil : Respelt [] []
  /-- Where no command starts, nothing is replaced any more. -/
  | unknown {token rest} (h : Verb.lookup? token = none) : Respelt (token :: rest) (token :: rest)
  /-- The last command lacks operands. -/
  | short {token token' verb rest} (h : Verb.lookup? token = some verb)
    (h' : Verb.lookup? token' = some verb) (hlt : rest.length < verb.arity) :
    Respelt (token :: rest) (token' :: rest)
  | command {token token' verb rest rest'} (operands : List String) (h : Verb.lookup? token = some verb)
    (h' : Verb.lookup? token' = some verb) (hlen : operands.length = verb.arity)
    (hrest : Respelt rest rest') : Respelt (token :: (operands ++ rest)) (token' :: (operands ++ rest'))

/-- A run goes by what verbs mean and not by how they are spelt. -/
theorem Respelt.matches {σ : Type} {ctx : Context} {client : Client σ} {tokens tokens' : List String}
    (h : Respelt tokens tokens') (w : World σ) :
    (interpret ctx client tokens w).Matches id (interpret ctx client tokens' w) := by
  induction h generalizing w with
  | nil => exact .refl _
  | unknown h => exact .refl _
  | short h h' hlt =>
    rw [interpret_stuck (stuck_of_short h hlt), interpret_stuck (stuck_of_short h' hlt), ending, ending,
      h, h']
    exact ⟨rfl, rfl, rfl⟩
  | @command token token' verb rest rest' operands h h' hlen hrest ih =>
    have hp : (⟨token, verb, operands⟩ : Phrase).Whole := ⟨h, hlen⟩
    have hq : (⟨token', verb, operands⟩ : Phrase).Whole := ⟨h', hlen⟩
    exact interpret_matches hp hq (Phrase.matches_of_command_eq rfl) ih w

/-! ## Increments and decrements as counts -/

/-- The second list has a count of one in place of some increments of the first,
and a count of minus one in place of some decrements, where commands start. -/
inductive CountedByOne : List String → List String → Prop where
  /-- No command starts here: nothing is replaced any more. -/
  | stuck {rest} (h : Stuck rest) : CountedByOne rest rest
  | same {p : Phrase} {rest rest'} (hp : p.Whole) (hrest : CountedByOne rest rest') :
    CountedByOne (p.tokens ++ rest) (p.tokens ++ rest')
  | incr {token token' name rest rest'} (h : Verb.lookup? token = some .incr)
    (h' : Verb.lookup? token' = some .count) (hrest : CountedByOne rest rest') :
    CountedByOne (token :: name :: rest) (token' :: name :: "1" :: rest')
  | decr {token token' name rest rest'} (h : Verb.lookup? token = some .decr)
    (h' : Verb.lookup? token' = some .count) (hrest : CountedByOne rest rest') :
    CountedByOne (token :: name :: rest) (token' :: name :: "-1" :: rest')

theorem readValue_one : readValue "1" = .ok .unit := by decide +kernel

theorem readValue_minus_one : readValue "-1" = .ok (-.unit) := by decide +kernel

section

variable {σ : Type} {ctx : Context} {base : Client σ}

/-- Commands match whose calls are the same count to the client, if this is also
what their reports are of. -/
theorem Command.matches_of_asCount {c c' : Command} {call call' : Call}
    (hd : c.deed ctx.tags = .ask call) (hd' : c'.deed ctx.tags = .ask call')
    (hcall : call'.asCount = call.asCount)
    (hevent : (Occurrence.logged c'.event).asCount = (Occurrence.logged c.event).asCount)
    (w : World σ) : c.Matches base.viaCount ctx.tags Occurrence.asCount c' w := by
  have hsame : base.viaCount.answer w.now call' w.client = base.viaCount.answer w.now call w.client := by
    simp only [Client.viaCount, hcall]
  have hcalled : (Occurrence.called call').asCount = (Occurrence.called call).asCount :=
    congrArg Occurrence.called hcall
  rcases ha : base.viaCount.answer w.now call w.client with ⟨s, e | ⟨⟨⟩⟩⟩
  · constructor <;> simp only [perform_ask hd, perform_ask hd', ask, hsame, ha, List.map_cons,
      List.map_nil, hcalled]
  · constructor <;> simp only [perform_ask hd, perform_ask hd', ask, hsame, ha, List.map_cons,
      List.map_nil, hcalled, hevent]

theorem Phrase.matches_count {p : Phrase} {c : Command} {call : Call} {token name value : String}
    {v : Binary64} (hread : readValue value = .ok v) (hc : p.command ctx = .ok c)
    (hd : c.deed ctx.tags = .ask call)
    (hcall : .count (ctx.scope.text ++ name) v ctx.tags = call.asCount)
    (hevent : .logged (.count (ctx.scope.text ++ name) v) = (Occurrence.logged c.event).asCount) :
    p.Matches ctx base.viaCount Occurrence.asCount ⟨token, .count, [name, value]⟩ := by
  have hcount : (⟨token, .count, [name, value]⟩ : Phrase).command ctx =
      .ok (.count (ctx.scope.text ++ name) v) := by
    simp only [Phrase.command, hread]
    rfl
  exact .command hc hcount (Command.matches_of_asCount hd rfl hcall hevent)

/-- A client that has no way of its own to increment and decrement cannot tell
these from counts. -/
theorem CountedByOne.matches {tokens tokens' : List String} (h : CountedByOne tokens tokens')
    (w : World σ) :
    (interpret ctx base.viaCount tokens w).Matches Occurrence.asCount
      (interpret ctx base.viaCount tokens' w) := by
  induction h generalizing w with
  | stuck h => exact .refl _
  | same hp hrest ih => exact interpret_matches hp hp (Phrase.matches_of_command_eq rfl) ih w
  | @incr token token' name rest rest' h h' hrest ih =>
    have hp : (⟨token, .incr, [name]⟩ : Phrase).Whole := ⟨h, rfl⟩
    have hq : (⟨token', .count, [name, "1"]⟩ : Phrase).Whole := ⟨h', rfl⟩
    exact interpret_matches hp hq (Phrase.matches_count readValue_one rfl rfl rfl rfl) ih w
  | @decr token token' name rest rest' h h' hrest ih =>
    have hp : (⟨token, .decr, [name]⟩ : Phrase).Whole := ⟨h, rfl⟩
    have hq : (⟨token', .count, [name, "-1"]⟩ : Phrase).Whole := ⟨h', rfl⟩
    exact interpret_matches hp hq (Phrase.matches_count readValue_minus_one rfl rfl rfl rfl) ih w

end

end MetricStream
