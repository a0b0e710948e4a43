/-
The executable: what a run finds around it, and what becomes of its outputs.

All decisions are `Program.run`'s. A run is worked out first and then played:
its lines are written and its pauses waited for, in order. Log lines carry no
time. No backend can be reached from here, so every submission is lost; a dry
run needs none.
-/
import MetricStream.Program

namespace MetricStream.Main

/-- The content of a file, if it can be read. -/
def readContent (path : String) : IO (Option (List UInt8)) := do
  match ← (IO.FS.readBinFile path).toBaseIO with
  | .ok octets => return some octets.toList
  | .error _ => return none

/-- The variables of the environment that count. -/
def readEnvironment : IO Environment := do
  let apiKey ← IO.getEnv Environment.apiKeyName
  let apiUrl ← IO.getEnv Environment.apiUrlName
  let logFilter ← IO.getEnv Environment.logFilterName
  return ⟨apiKey, apiUrl, logFilter⟩

/-- The machine's own name, which its system keeps on a line. -/
def readLocalHost : IO LocalHost := do
  match ← (IO.FS.readBinFile "/proc/sys/kernel/hostname").toBaseIO with
  | .ok octets => return .ok (octets.toList.takeWhile (· ≠ '\n'.toUInt8))
  | .error cause => return .error (toString cause)

/-- The content of the configuration file, if one is named and there. -/
def readConfig (environment : Environment) (args : List String) : IO (Option (List UInt8)) :=
  match CommandLine.read environment args with
  | .ok { config := some path, .. } => readContent path
  | _ => return none

/-- A backend that nothing reaches. -/
def noBackend : Delivery.Backend := ⟨fun _ => none, fun _ => false, fun _ => .lost, []⟩

/-- The milliseconds of a day, the longest single wait. -/
def dayMillis : Nat := 86400000

/-- Waits at least this long. -/
def wait (d : Duration) : IO Unit := do
  let millis := (d.nanos + 999999) / 1000000
  for _ in [0:millis / dayMillis] do
    IO.sleep (UInt32.ofNat dayMillis)
  IO.sleep (UInt32.ofNat (millis % dayMillis))

/-- Puts an output out. -/
def put : Program.Output → IO Unit
  | .answer text => IO.print text
  | .complaint text => IO.eprint text
  | .log event true => IO.eprintln (String.ofList event.json.render)
  | .log event false => IO.eprintln event.line
  | .pause duration => wait duration

end MetricStream.Main

/-- Runs the program with these arguments. -/
def main (args : List String) : IO UInt32 := do
  let environment ← MetricStream.Main.readEnvironment
  let content ← MetricStream.Main.readConfig environment args
  let localHost ← MetricStream.Main.readLocalHost
  let run := MetricStream.Program.run
    { environment
      file := fun _ => content
      localHost
      now := .ofSeconds 0
      backend := MetricStream.Main.noBackend
      http := ["no network"] }
    args
  run.outputs.forM MetricStream.Main.put
  return UInt32.ofNat run.exitCode
