/-
A token list, cut into its commands.

A command of the list is a token that spells a verb and, after it, as many
tokens as the verb has operands, whatever these are. `cut` takes commands off
the front for as long as there is one. `Cut` says the same of the list as a
whole, with no word on how it is found, and a list has no other cut
(`cut_iff`): so which tokens are verbs depends on nothing but the list.
-/
import MetricStream.Interpreter

namespace MetricStream

/-- A command as it stands in a token list. -/
structure Phrase where
  /-- The token it starts with. -/
  typed : String
  verb : Verb
  /-- The operands, word for word. -/
  operands : List String
deriving DecidableEq

namespace Phrase

/-- The part of the list that the command takes up. -/
def tokens (p : Phrase) : List String := p.typed :: p.operands

/-- The token spells the verb, and no operand is missing or left over. -/
structure Whole (p : Phrase) : Prop where
  spelt : Verb.lookup? p.typed = some p.verb
  length : p.operands.length = p.verb.arity

end Phrase

/-- No command stands at the front of the list. -/
def Stuck (rest : List String) : Prop := ∀ p : Phrase, p.Whole → ∀ more, rest ≠ p.tokens ++ more

theorem stuck_nil : Stuck [] := by
  intro p _ more h
  simp [Phrase.tokens] at h

theorem stuck_of_unknown {token : String} {rest : List String} (h : Verb.lookup? token = none) :
    Stuck (token :: rest) := by
  intro p hp more he
  simp only [Phrase.tokens, List.cons_append, List.cons.injEq] at he
  rw [he.1, hp.spelt] at h
  cases h

theorem stuck_of_short {token : String} {verb : Verb} {rest : List String}
    (h : Verb.lookup? token = some verb) (hlt : rest.length < verb.arity) : Stuck (token :: rest) := by
  intro p hp more he
  simp only [Phrase.tokens, List.cons_append, List.cons.injEq] at he
  obtain ⟨rfl, rfl⟩ := he
  have hverb : verb = p.verb := Option.some.inj (h.symm.trans hp.spelt)
  rw [List.length_append, hp.length, hverb] at hlt
  omega

/-- A list that no command starts is empty, or its first token spells no verb,
or the verb that it spells has more operands than there are tokens left. -/
theorem Stuck.cases {rest : List String} (h : Stuck rest) :
    rest = [] ∨ (∃ token more, rest = token :: more ∧ Verb.lookup? token = none) ∨
      ∃ token more verb, rest = token :: more ∧ Verb.lookup? token = some verb ∧
        more.length < verb.arity := by
  rcases rest with _ | ⟨token, more⟩
  · exact .inl rfl
  rcases hv : Verb.lookup? token with _ | verb
  · exact .inr (.inl ⟨token, more, rfl, hv⟩)
  refine .inr (.inr ⟨token, more, verb, rfl, hv, ?_⟩)
  by_cases hlt : more.length < verb.arity
  · exact hlt
  have hp : (⟨token, verb, more.take verb.arity⟩ : Phrase).Whole :=
    ⟨hv, by simp only [List.length_take]; omega⟩
  exact absurd (by simp [Phrase.tokens]) (h _ hp (more.drop verb.arity))

/-- The list consists of the commands, and of a rest that no command starts. -/
structure Cut (tokens : List String) (phrases : List Phrase) (rest : List String) : Prop where
  tokens_eq : tokens = phrases.flatMap Phrase.tokens ++ rest
  whole : ∀ p ∈ phrases, p.Whole
  stuck : Stuck rest

/-- Takes commands off the front for as long as there is one: the commands, and
the rest. -/
def cut : List String → List Phrase × List String
  | [] => ([], [])
  | token :: rest =>
    match Verb.lookup? token with
    | none => ([], token :: rest)
    | some verb =>
      if rest.length < verb.arity then ([], token :: rest)
      else
        let (phrases, left) := cut (rest.drop verb.arity)
        (⟨token, verb, rest.take verb.arity⟩ :: phrases, left)
termination_by tokens => tokens.length
decreasing_by
  rw [List.length_drop, List.length_cons]
  omega

theorem cut_stuck {rest : List String} (h : Stuck rest) : cut rest = ([], rest) := by
  rcases h.cases with rfl | ⟨token, more, rfl, hv⟩ | ⟨token, more, verb, rfl, hv, hlt⟩
  · rw [cut]
  · rw [cut, hv]
  · rw [cut, hv]
    exact if_pos hlt

theorem cut_append {p : Phrase} (hp : p.Whole) (rest : List String) :
    cut (p.tokens ++ rest) = (p :: (cut rest).1, (cut rest).2) := by
  obtain ⟨typed, verb, operands⟩ := p
  have hlen : operands.length = verb.arity := hp.length
  have hlt : ¬ (operands ++ rest).length < verb.arity := by
    rw [List.length_append]; omega
  simp only [Phrase.tokens, List.cons_append]
  rw [cut, hp.spelt]
  simp only [hlt, if_false, List.drop_left' hlen, List.take_left' hlen]

/-! ## One cut for each list -/

theorem Cut.nil {rest : List String} (h : Stuck rest) : Cut rest [] rest :=
  ⟨rfl, by simp, h⟩

theorem Cut.cons {p : Phrase} (hp : p.Whole) {tokens rest : List String} {phrases : List Phrase}
    (h : Cut tokens phrases rest) : Cut (p.tokens ++ tokens) (p :: phrases) rest := by
  refine ⟨by simp [h.tokens_eq], ?_, h.stuck⟩
  intro q hq
  rcases List.mem_cons.1 hq with rfl | hq
  · exact hp
  · exact h.whole q hq

/-- A list that is commands to the last one leaves the cut of what follows it alone. -/
theorem Cut.append {xs ys rest : List String} {ps qs : List Phrase} (hxs : Cut xs ps [])
    (hys : Cut ys qs rest) : Cut (xs ++ ys) (ps ++ qs) rest := by
  refine ⟨by simp [hxs.tokens_eq, hys.tokens_eq], fun p hp => ?_, hys.stuck⟩
  rcases List.mem_append.1 hp with hp | hp
  · exact hxs.whole p hp
  · exact hys.whole p hp

theorem Cut.tail {p : Phrase} {tokens rest : List String} {phrases : List Phrase}
    (h : Cut tokens (p :: phrases) rest) :
    p.Whole ∧ ∃ tokens', tokens = p.tokens ++ tokens' ∧ Cut tokens' phrases rest :=
  ⟨h.whole p (by simp), phrases.flatMap Phrase.tokens ++ rest, by simp [h.tokens_eq],
    rfl, fun q hq => h.whole q (by simp [hq]), h.stuck⟩

theorem Cut.init {tokens rest : List String} {ps qs : List Phrase} (h : Cut tokens (ps ++ qs) rest) :
    Cut (ps.flatMap Phrase.tokens) ps [] :=
  ⟨(List.append_nil _).symm, fun p hp => h.whole p (List.mem_append_left _ hp), stuck_nil⟩

theorem Cut.final {tokens rest : List String} {ps qs : List Phrase} (h : Cut tokens (ps ++ qs) rest) :
    Cut (qs.flatMap Phrase.tokens ++ rest) qs rest :=
  ⟨rfl, fun p hp => h.whole p (List.mem_append_right _ hp), h.stuck⟩

theorem Cut.eq {tokens rest : List String} {phrases : List Phrase} (h : Cut tokens phrases rest) :
    cut tokens = (phrases, rest) := by
  induction phrases generalizing tokens with
  | nil =>
    obtain rfl : tokens = rest := by simpa using h.tokens_eq
    exact cut_stuck h.stuck
  | cons p phrases ih =>
    obtain ⟨hp, tokens', rfl, h'⟩ := h.tail
    rw [cut_append hp, ih h']

theorem cut_spec (tokens : List String) : Cut tokens (cut tokens).1 (cut tokens).2 := by
  -- The cases are those of `cut`; in the last one the induction is on the tokens after the operands.
  fun_induction cut tokens with
  | case1 => exact .nil stuck_nil
  | case2 token rest hv => exact .nil (stuck_of_unknown hv)
  | case3 token rest verb hv hlt => exact .nil (stuck_of_short hv hlt)
  | case4 token rest verb hv hlt phrases left hcut ih =>
    rw [hcut] at ih
    have hp : (⟨token, verb, rest.take verb.arity⟩ : Phrase).Whole :=
      ⟨hv, by simp only [List.length_take]; omega⟩
    have hc := Cut.cons hp ih
    simpa [Phrase.tokens] using hc

/-- `cut` finds the one cut that there is. -/
theorem cut_iff {tokens rest : List String} {phrases : List Phrase} :
    Cut tokens phrases rest ↔ cut tokens = (phrases, rest) := by
  refine ⟨Cut.eq, fun h => ?_⟩
  have hc := cut_spec tokens
  rwa [h] at hc

example : cut ["incr", "flush", "g", "sleep", "3", "f", "count", "x"] =
    ([⟨"incr", .incr, ["flush"]⟩, ⟨"g", .gauge, ["sleep", "3"]⟩, ⟨"f", .flush, []⟩],
      ["count", "x"]) := by
  simp [cut, Verb.lookup?, Verb.arity]

end MetricStream
