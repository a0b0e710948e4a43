/-
The client of a dry run: it accepts every call, delivers nothing, and counts
the metrics it was given.
-/
import MetricStream.Client

namespace MetricStream

/-- How many metrics were accepted, flushes not counted. -/
structure DryRun where
  actions : Nat

namespace DryRun

def client : Client DryRun := Client.viaCount
  { answer := fun _ call s => match call with
      | .gauge _ _ _ => (⟨s.actions + 1⟩, .ok ())
      | .count _ _ _ => (⟨s.actions + 1⟩, .ok ())
      | _ => (s, .ok ()) }

def start : DryRun := ⟨0⟩

end DryRun

end MetricStream
