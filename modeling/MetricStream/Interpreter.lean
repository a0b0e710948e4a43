/-
The interpreter: a flat list of tokens, carried out from the left.

The first token names a verb, the verb takes its operands, the command is
carried out, and the rest is interpreted the same way, until no token is left
or a command fails. What happens is recorded as one list of occurrences in the
order they happen: calls to the client, log events and pauses. Time is a part
of the state; only a pause moves it.
-/
import MetricStream.Command

namespace MetricStream

/-- Something that happens in a run. -/
inductive Occurrence where
  /-- The client was called. -/
  | called (call : Call)
  | logged (event : Log.Event)
  | paused (duration : Duration)
deriving DecidableEq

namespace Occurrence

def call? : Occurrence → Option Call
  | .called call => some call
  | _ => none

def event? : Occurrence → Option Log.Event
  | .logged event => some event
  | _ => none

/-- The nanoseconds that pass. -/
def nanos : Occurrence → Nat
  | .paused duration => duration.nanos
  | _ => 0

end Occurrence

/-- Why one command failed. -/
inductive CommandError where
  | operand (cause : OperandError)
  | client (cause : ClientError)
deriving DecidableEq

def CommandError.chain : CommandError → List String
  | .operand cause => cause.chain
  | .client cause => [cause.message]

/-- Why a run stopped early. Both name the token at the command's start, as it
was typed. -/
inductive RunError where
  | unknownCommand (typed : String)
  | commandFailed (typed : String) (cause : CommandError)
deriving DecidableEq

namespace RunError

/-- The token that the run stopped at. -/
def typed : RunError → String
  | .unknownCommand typed => typed
  | .commandFailed typed _ => typed

def message : RunError → String
  | .unknownCommand typed => "unknown command: " ++ Text.quote typed
  | .commandFailed typed _ => "cmd " ++ Text.quote typed ++ " failed"

/-- The error's own text, and after it the texts of what caused it. -/
def chain (e : RunError) : List String :=
  match e with
  | .unknownCommand _ => [e.message]
  | .commandFailed _ cause => e.message :: cause.chain

end RunError

/-- What a run acts on: the client's state, and the time. -/
structure World (σ : Type) where
  client : σ
  now : Instant

/-- How a run or a part of it ended, what happened in it, and what it left
behind. -/
structure Outcome (σ : Type) (ε α : Type) where
  result : Except ε α
  trace : List Occurrence
  world : World σ

namespace Outcome

variable {σ ε α : Type}

/-- The calls that the client received, in order. -/
def calls (o : Outcome σ ε α) : List Call := o.trace.filterMap Occurrence.call?

/-- The log events, in order. -/
def events (o : Outcome σ ε α) : List Log.Event := o.trace.filterMap Occurrence.event?

/-- The time that passed. -/
def elapsed (o : Outcome σ ε α) : Duration :=
  ⟨o.trace.foldr (fun occurrence total => occurrence.nanos + total) 0⟩

end Outcome

/-- Makes one call, and reports it once the client has accepted it. -/
def ask {σ : Type} (client : Client σ) (call : Call) (event : Log.Event) (w : World σ) :
    Outcome σ ClientError Unit :=
  let (state, answer) := client.answer w.now call w.client
  match answer with
  | .ok () => ⟨.ok (), [.called call, .logged event], ⟨state, w.now⟩⟩
  | .error e => ⟨.error e, [.called call], ⟨state, w.now⟩⟩

/-- Carries one command out. A pause is reported before it begins. -/
def Command.perform {σ : Type} (client : Client σ) (tags : List String) (command : Command)
    (w : World σ) : Outcome σ ClientError Unit :=
  match command with
  | .gauge metric value => ask client (.gauge metric value tags) command.event w
  | .count metric value => ask client (.count metric value tags) command.event w
  | .incr metric => ask client (.increment metric tags) command.event w
  | .decr metric => ask client (.decrement metric tags) command.event w
  | .sleep duration =>
    ⟨.ok (), [.logged command.event, .paused duration], ⟨w.client, w.now.after duration⟩⟩
  | .flush => ask client .flush command.event w

/-- The outcome of a run that first carried out one more command, in which
`trace` happened. -/
def Outcome.afterOne {σ : Type} (trace : List Occurrence) (o : Outcome σ RunError Nat) :
    Outcome σ RunError Nat :=
  ⟨o.result.map (· + 1), trace ++ o.trace, o.world⟩

/-- Interprets the tokens from the left. The result counts the commands. -/
def interpret {σ : Type} (ctx : Context) (client : Client σ) (tokens : List String)
    (w : World σ) : Outcome σ RunError Nat :=
  match tokens with
  | [] => ⟨.ok 0, [], w⟩
  | token :: rest =>
    match Verb.lookup? token with
    | none => ⟨.error (.unknownCommand token), [], w⟩
    | some verb =>
      match _h : Command.read ctx verb rest with
      | .error e => ⟨.error (.commandFailed token (.operand e)), [], w⟩
      | .ok (command, remaining) =>
        let step := command.perform client ctx.tags w
        match step.result with
        | .error e => ⟨.error (.commandFailed token (.client e)), step.trace, step.world⟩
        | .ok () => (interpret ctx client remaining step.world).afterOne step.trace
termination_by tokens.length
decreasing_by
  have := Command.length_read _h
  simp only [List.length_cons]
  omega

end MetricStream
