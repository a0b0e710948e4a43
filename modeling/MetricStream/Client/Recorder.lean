/-
A client that remembers every call it was given, in order, and answers as its
script says.
-/
import MetricStream.Client

namespace MetricStream

/-- The calls received so far. -/
structure Recorder where
  calls : List Call

namespace Recorder

/-- What a recorder answers: the number of the call, counted from zero, and the
call itself decide whether it is refused. -/
abbrev Script := Nat → Call → Option ClientError

/-- The script that refuses by the call's number alone. -/
def Script.byNumber (refusals : List (Nat × ClientError)) : Script :=
  fun i _ => (refusals.find? (·.1 == i)).map (·.2)

/-- The script that refuses every flush, or every close, or both, or neither. -/
def Script.byKind (flushFails closeFails : Bool) : Script
  | _, .flush => if flushFails then some (.status 503 "unavailable") else none
  | _, .close => if closeFails then some .closed else none
  | _, _ => none

/-- A call is remembered before it is answered. -/
def client (script : Script) : Client Recorder where
  answer _ call r :=
    (⟨r.calls ++ [call]⟩,
      match script r.calls.length call with
      | some e => .error e
      | none => .ok ())

def start : Recorder := ⟨[]⟩

end Recorder

end MetricStream
