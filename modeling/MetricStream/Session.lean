/-
A session: a run, and the close of its client after it.

The client is closed on every path, once. A failed command outweighs a failed
close, which is then only logged.
-/
import MetricStream.Interpreter

namespace MetricStream

/-- Why a session failed. -/
inductive SessionError where
  | run (cause : RunError)
  | close (cause : ClientError)
deriving DecidableEq

namespace SessionError

def message : SessionError → String
  | .run cause => cause.message
  | .close _ => "unable to close metrics client"

/-- The error's own text, and after it the texts of what caused it. -/
def chain (e : SessionError) : List String :=
  match e with
  | .run cause => cause.chain
  | .close cause => [e.message, cause.message]

/-- The client's reason for a session's failure, if the client is why it failed. -/
def client? : SessionError → Option ClientError
  | .run (.commandFailed _ (.client e)) => some e
  | .close e => some e
  | _ => none

/-- What a diagnostic tells of the error, where the library that carries requests
has told of it in the texts `http`: the error, and what caused it, from the
outside in. -/
def report (http : List String) (e : SessionError) : String :=
  ": ".intercalate (e.chain ++ e.client?.elim [] (ClientError.sources http))

end SessionError

/-- Interprets the tokens, then closes the client. -/
def execute {σ : Type} (ctx : Context) (client : Client σ) (tokens : List String)
    (w : World σ) : Outcome σ SessionError Nat :=
  let run := interpret ctx client tokens w
  let (state, answer) := client.answer run.world.now .close run.world.client
  let world : World σ := ⟨state, run.world.now⟩
  let trace := run.trace ++ [.called .close]
  match run.result, answer with
  | .ok n, .ok () => ⟨.ok n, trace, world⟩
  | .ok _, .error e => ⟨.error (.close e), trace, world⟩
  | .error e, .ok () => ⟨.error (.run e), trace, world⟩
  | .error e, .error e' => ⟨.error (.run e), trace ++ [.logged (.closeFailed e')], world⟩

end MetricStream
