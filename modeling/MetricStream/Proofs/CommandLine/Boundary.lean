/-
Where the options of a command line end, and the commands start.

A command line is options and then commands, with or without two hyphens
between them (`readFrom_eq_ok_iff`). What the options are read as depends on
them alone. So commands are what they are whatever they look like, and other
commands in their place change nothing else (`commands_are_untouched`).
-/
import MetricStream.Proofs.CommandLine.Arguments

namespace MetricStream.CommandLine

/-- Commands that can follow options directly: the first is no option, nor two
hyphens. -/
def OpensCommands (commands : List String) : Prop :=
  ∀ first ∈ commands.head?, first ≠ "--" ∧ ¬ IsOption first

/-- What arguments that are all options make of a draft. -/
inductive Reads : Draft → List String → Draft → Prop where
  | nil (d : Draft) : Reads d [] d
  | flag {d d₁ d' : Draft} {arg : String} {f : Flag} {options : List String} :
      Argument.ofText arg = .flag f → d.raise f = .ok d₁ → Reads d₁ options d' →
      Reads d (arg :: options) d'
  | attached {d d₁ d' : Draft} {arg value : String} {p : Parameter} {options : List String} :
      Argument.ofText arg = .parameter p (some value) → d.give p value = .ok d₁ →
      Reads d₁ options d' → Reads d (arg :: options) d'
  | separate {d d₁ d' : Draft} {arg value : String} {p : Parameter} {options : List String} :
      Argument.ofText arg = .parameter p none → Argument.ofText value = .word →
      surplus? options = none → d.give p value = .ok d₁ → Reads d₁ options d' →
      Reads d (arg :: value :: options) d'

/-! ## The first argument -/

theorem OpensCommands.word {first : String} {rest : List String} (h : OpensCommands (first :: rest)) :
    Argument.ofText first = .word :=
  Argument.ofText_eq_word_iff.2 (h first rfl)

theorem opensCommands_of_word {first : String} (h : Argument.ofText first = .word) (rest : List String) :
    OpensCommands (first :: rest) := by
  intro arg harg
  obtain rfl : first = arg := by simpa using harg
  exact Argument.ofText_eq_word_iff.1 h

theorem surplus?_word {first : String} (h : Argument.ofText first = .word) (rest : List String) :
    surplus? (first :: rest) = none := by
  rw [surplus?, h]

theorem OpensCommands.surplus? {commands : List String} (h : OpensCommands commands) :
    surplus? commands = none := by
  rcases commands with _ | ⟨first, rest⟩
  · rfl
  · exact surplus?_word h.word rest

/-- Only the first argument can be a surplus. -/
theorem surplus?_append_eq_none {options rest : List String} :
    surplus? options = none → surplus? rest = none → surplus? (options ++ rest) = none := by
  intro hoptions hrest
  rcases options with _ | ⟨first, options⟩
  · exact hrest
  · exact hoptions

theorem surplus?_of_append {options rest : List String} (h : surplus? (options ++ rest) = none) :
    surplus? options = none := by
  rcases options with _ | ⟨first, options⟩
  · rfl
  · exact h

/-! ## Options and commands -/

theorem readFrom_commands (d : Draft) {commands : List String} (h : OpensCommands commands) :
    readFrom d commands = .ok (d, commands) := by
  rcases commands with _ | ⟨first, rest⟩
  · rw [readFrom]
  · rw [readFrom, h.word]

theorem readFrom_terminator (d : Draft) (commands : List String) :
    readFrom d ("--" :: commands) = .ok (d, commands) := by
  rw [readFrom]
  rfl

theorem separateValue_eq_ok {p : Parameter} {args rest : List String} {value : String}
    (h : separateValue p args = .ok (value, rest)) :
    args = value :: rest ∧ Argument.ofText value = .word := by
  unfold separateValue at h
  split at h
  · cases h
  · split at h
    · next hword =>
      cases h
      exact ⟨rfl, hword⟩
    · cases h

theorem readFrom_separate {d : Draft} {arg value : String} {p : Parameter} {rest : List String}
    (harg : Argument.ofText arg = .parameter p none) (hvalue : Argument.ofText value = .word)
    (hsurplus : surplus? rest = none) :
    readFrom d (arg :: value :: rest) =
      match d.give p value with
      | .error e => .error e
      | .ok d => readFrom d rest := by
  have hsplit : separateValue p (value :: rest) = .ok (value, rest) := by
    rw [separateValue, if_pos hvalue]
  rw [readFrom, harg]
  simp only [surplus?_word hvalue]
  split
  · next h =>
    rw [hsplit] at h
    cases h
  · next h =>
    rw [hsplit] at h
    cases h
    rcases d.give p value with e | d₁ <;> simp [hsurplus]

/-- Options are read before what follows them, and with no regard to it. -/
theorem Reads.readFrom {d d' : Draft} {options : List String} (h : Reads d options d')
    {rest : List String} (hrest : surplus? rest = none) :
    readFrom d (options ++ rest) = readFrom d' rest := by
  induction h with
  | nil => rfl
  | flag harg hraise _ ih => simp [CommandLine.readFrom, harg, hraise, ih]
  | attached harg hgive _ ih => simp [CommandLine.readFrom, harg, hgive, ih]
  | separate harg hvalue hsurplus hgive _ ih =>
    have hboth := surplus?_append_eq_none hsurplus hrest
    rw [List.cons_append, List.cons_append, readFrom_separate harg hvalue hboth, hgive]
    exact ih

/-- What can be read is options, and commands after them. -/
theorem readFrom_eq_ok_iff {d d' : Draft} {args commands : List String} :
    readFrom d args = .ok (d', commands) ↔
      ∃ options, Reads d options d' ∧
        (args = options ++ commands ∧ OpensCommands commands ∨ args = options ++ "--" :: commands) := by
  constructor
  · intro h
    -- The cases are those of `readFrom`; those that end in an error are closed at once.
    fun_induction readFrom d args
    all_goals try (cases h; done)
    case case1 =>
      cases h
      exact ⟨[], .nil _, .inl ⟨rfl, by simp [OpensCommands]⟩⟩
    case case2 arg rest harg =>
      cases h
      exact ⟨[], .nil _, .inr (by rw [Argument.eq_terminator harg]; rfl)⟩
    case case3 arg rest harg =>
      cases h
      exact ⟨[], .nil _, .inl ⟨rfl, opensCommands_of_word harg rest⟩⟩
    case case8 d arg rest f harg d₁ hraise ih =>
      obtain ⟨options, hreads, hargs⟩ := ih h
      exact ⟨arg :: options, .flag harg hraise hreads, by simpa using hargs⟩
    case case10 d arg rest p value harg d₁ hgive ih =>
      obtain ⟨options, hreads, hargs⟩ := ih h
      exact ⟨arg :: options, .attached harg hgive hreads, by simpa using hargs⟩
    case case15 d arg args p harg hfirst value rest hsplit hsurplus d₁ hgive ih =>
      obtain ⟨rfl, hvalue⟩ := separateValue_eq_ok hsplit
      obtain ⟨options, hreads, hargs⟩ := ih h
      have hsurplus' : surplus? options = none := by
        rcases hargs with ⟨rfl, -⟩ | rfl <;> exact surplus?_of_append hsurplus
      exact ⟨arg :: value :: options, .separate harg hvalue hsurplus' hgive hreads, by simpa using hargs⟩
  · rintro ⟨options, hreads, ⟨rfl, hcommands⟩ | rfl⟩
    · rw [hreads.readFrom hcommands.surplus?, readFrom_commands d' hcommands]
    · rw [hreads.readFrom rfl, readFrom_terminator]

theorem read_eq_ok_iff {env : Environment} {args : List String} {line : CommandLine} :
    read env args = .ok line ↔
      ∃ d commands, readFrom .empty args = .ok (d, commands) ∧ line = d.finish env commands := by
  unfold read
  rcases readFrom .empty args with e | ⟨d, commands⟩
  · simp [Except.map]
  · constructor
    · intro h
      cases h
      exact ⟨d, commands, rfl, rfl⟩
    · rintro ⟨d', commands', h, rfl⟩
      cases h
      rfl

/-- **Commands are untouched, and cannot act as options.** The commands of a
command line are the end of its arguments, as they stand. The arguments before
them and the environment decide everything else: other commands after the same
options, and any list at all after two hyphens, are read as commands, and
nothing else changes. Only the first command counts for whether two hyphens are
needed, and no number does. -/
theorem commands_are_untouched {env : Environment} {args : List String} {line : CommandLine}
    (h : read env args = .ok line) :
    (∃ options,
      (args = options ++ line.commands ∧ OpensCommands line.commands ∨
        args = options ++ "--" :: line.commands) ∧
      (∀ commands, OpensCommands commands →
        read env (options ++ commands) = .ok { line with commands := commands }) ∧
      (∀ commands, read env (options ++ "--" :: commands) = .ok { line with commands := commands })) ∧
    (∀ before, args = before ++ line.commands → read env before = .ok { line with commands := [] }) ∧
    (∀ first, (Binary64.read? first).isSome = true → ∀ rest, OpensCommands (first :: rest)) := by
  obtain ⟨d, commands, hread, rfl⟩ := read_eq_ok_iff.1 h
  obtain ⟨options, hreads, hargs⟩ := readFrom_eq_ok_iff.1 hread
  have hplain : ∀ ys, OpensCommands ys → read env (options ++ ys) = .ok (d.finish env ys) := fun ys hys =>
    read_eq_ok_iff.2 ⟨d, ys, readFrom_eq_ok_iff.2 ⟨options, hreads, .inl ⟨rfl, hys⟩⟩, rfl⟩
  have hbehind : ∀ ys, read env (options ++ "--" :: ys) = .ok (d.finish env ys) := fun ys =>
    read_eq_ok_iff.2 ⟨d, ys, readFrom_eq_ok_iff.2 ⟨options, hreads, .inr rfl⟩, rfl⟩
  refine ⟨⟨options, hargs, hplain, hbehind⟩, fun before hbefore => ?_, fun first hfirst rest => ?_⟩
  · have hcommands : (d.finish env commands).commands = commands := rfl
    rw [hcommands] at hbefore
    -- What stands before the commands are the options, or the options and two hyphens.
    rcases hargs with ⟨rfl, -⟩ | rfl
    · obtain rfl := List.append_cancel_right hbefore
      have hnone := hplain [] (by simp [OpensCommands])
      rwa [List.append_nil] at hnone
    · rw [List.append_cons] at hbefore
      obtain rfl := List.append_cancel_right hbefore
      exact hbehind []
  · intro arg harg
    obtain rfl : first = arg := by simpa using harg
    exact not_isOption_of_number hfirst

/-- A negative number is the value of an option, and another one the first
command; what looks like an option after it is a command. -/
theorem commands_are_untouched_negative_number :
    let env : Environment := ⟨some "k", none, none⟩
    let args := ["--namespace", "-5", "--dry-run", "-1", "--tags=x", "--"]
    read env args = .ok ⟨some "-5", none, none, none, some ⟨"k"⟩, none, true, false,
      ["-1", "--tags=x", "--"]⟩ ∧
    read env ["--namespace", "-5", "--dry-run"] = .ok ⟨some "-5", none, none, none, some ⟨"k"⟩, none,
      true, false, []⟩ ∧
    OpensCommands ["-1", "--tags=x", "--"] := by
  intro env args
  have hread : read env args = .ok ⟨some "-5", none, none, none, some ⟨"k"⟩, none, true, false,
      ["-1", "--tags=x", "--"]⟩ := by decide +kernel
  obtain ⟨-, hbefore, hnumber⟩ := commands_are_untouched hread
  exact ⟨hread, hbefore ["--namespace", "-5", "--dry-run"] rfl, hnumber "-1" (by decide +kernel) _⟩

end MetricStream.CommandLine
