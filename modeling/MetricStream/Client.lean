/-
Metrics clients: what a run hands its metrics to.

A client is a state machine. It is called with one `Call` at a time, at a
point in time, and answers each with success or with a reason to stop; what it
remembers in between is its own. Nothing is known to be delivered before a
flush or the close has succeeded.
-/
import MetricStream.Binary64
import MetricStream.Instant
import MetricStream.Text.Quoted

namespace MetricStream

/-- What a client is asked to do. -/
inductive Call where
  /-- Set the gauge to the value. -/
  | gauge (metric : String) (value : Binary64) (tags : List String)
  /-- Add the value to the counter. -/
  | count (metric : String) (value : Binary64) (tags : List String)
  /-- Add one to the counter. -/
  | increment (metric : String) (tags : List String)
  /-- Subtract one from the counter. -/
  | decrement (metric : String) (tags : List String)
  /-- Deliver what is buffered. -/
  | flush
  /-- Deliver what is left and accept nothing more. -/
  | close
deriving DecidableEq

/-- Why a client refused a call. Every reason ends the run. -/
inductive ClientError where
  | missingApiKey
  /-- The client could not be set up. -/
  | setup
  /-- A submission got no answer. -/
  | request
  /-- A submission was answered, and not accepted. -/
  | status (code : Nat) (body : String)
  | nonFinite (metric : String)
  | closed
deriving DecidableEq

def ClientError.message : ClientError → String
  | .missingApiKey => "missing API key (set DD_API_KEY or pass --api-key)"
  | .setup => "unable to build HTTP client"
  | .request => "series submission failed"
  | .status code body => "backend rejected submission with status " ++ code.repr ++ ": " ++ body
  | .nonFinite metric => "value for " ++ Text.quote metric ++ " is not a finite number"
  | .closed => "client is closed"

/-- The texts of what caused an error, where `http` are those in which the library
that carries requests has told why one failed. -/
def ClientError.sources (http : List String) : ClientError → List String
  | .setup | .request => http
  | _ => []

/-- A client whose state is a `σ`. -/
structure Client (σ : Type) where
  /-- The state after a call, and the answer. -/
  answer : Instant → Call → σ → σ × Except ClientError Unit

/-- The number one. -/
def Binary64.unit : Binary64 := Binary64.ofNat 1

/-- A call in terms of the four that every client has: an increment is a count
of one, a decrement a count of minus one. -/
def Call.asCount : Call → Call
  | .increment metric tags => .count metric .unit tags
  | .decrement metric tags => .count metric (-.unit) tags
  | call => call

/-- The client that has no way of its own to increment or decrement. -/
def Client.viaCount {σ : Type} (client : Client σ) : Client σ :=
  ⟨fun now call => client.answer now call.asCount⟩

end MetricStream
