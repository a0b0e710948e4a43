/-
The program: from the command line to the exit code.

A run reads the command line, then the configuration file if one is named, and
settles everything before the first command. What it puts out is one list in
the order it happens, the pauses of its commands among it. Any failure ends it
with one line that says why, from the outside in.
-/
import MetricStream.Client.DryRun
import MetricStream.Client.Series
import MetricStream.CommandLine.Help
import MetricStream.Config.Load
import MetricStream.Log.Line
import MetricStream.Session
import MetricStream.Settings

namespace MetricStream.Program

/-- Why a run failed. -/
inductive Failure where
  | config (path : String) (cause : Config.LoadError)
  | host (cause : HostError)
  | logging (cause : Log.InvalidLevel)
  | setup (cause : ClientError)
  | session (cause : SessionError)
deriving DecidableEq

namespace Failure

/-- What the failure's line tells, where the library that carries requests has
told of it in the texts `http`: the failure, and what caused it, from the outside
in. -/
def report (http : List String) : Failure → String
  | .config path cause => ": ".intercalate (cause.chain path)
  | .host cause => ": ".intercalate cause.chain
  | .logging cause => ": ".intercalate cause.chain
  | .setup cause =>
    ": ".intercalate ("unable to create metrics client" :: cause.message :: cause.sources http)
  | .session cause => cause.report http

/-- The line that a failed run ends with. -/
def line (http : List String) (f : Failure) : String :=
  CommandLine.program ++ ": " ++ f.report http

end Failure

/-- Something that a run puts out, or a pause in between. -/
inductive Output where
  /-- To the standard output. -/
  | answer (text : String)
  /-- To the standard error. -/
  | complaint (text : String)
  /-- A log line, to the standard error. -/
  | log (event : Log.Event) (json : Bool)
  | pause (duration : Duration)
deriving DecidableEq

/-- A finished run. -/
structure Run where
  exitCode : Nat
  outputs : List Output
  /-- The backend, with the requests that it has received. -/
  backend : Delivery.Backend

/-- What a run finds where it is started. -/
structure Surroundings where
  environment : Environment
  /-- The content of the file at a path, if there is one. -/
  file : String → Option (List UInt8)
  localHost : LocalHost
  now : Instant
  backend : Delivery.Backend
  /-- The texts in which the library that carries requests tells why one failed. -/
  http : List String

/-- Which events are written, and how. -/
structure Logger where
  filter : Log.Filter
  json : Bool

namespace Logger

/-- What becomes of an event. -/
def outputs (l : Logger) (e : Log.Event) : List Output :=
  if l.filter.admits e.target e.level then [.log e l.json] else []

/-- What is put out of an occurrence in a session. -/
def ofOccurrence (l : Logger) : Occurrence → List Output
  | .called _ => []
  | .logged event => l.outputs event
  | .paused duration => [.pause duration]

end Logger

/-- The events that tell what metrics are decorated with. -/
def contextEvents (ctx : Context) : List Log.Event :=
  (if ctx.scope.isEmpty then [] else [.settingNamespace ctx.scope])
    ++ (if ctx.tags = [] then [] else [.settingTags ctx.tags])

/-- The end of a run that failed. -/
def failed (http : List String) (outputs : List Output) (f : Failure) (backend : Delivery.Backend) :
    Run :=
  ⟨1, outputs ++ [.complaint (f.line http ++ "\n")], backend⟩

/-- The end of a run whose session is over. -/
def finished {σ : Type} (http : List String) (logger : Logger) (outputs : List Output)
    (o : Outcome σ SessionError Nat) (backend : Delivery.Backend) : Run :=
  let outputs := outputs ++ o.trace.flatMap logger.ofOccurrence
  match o.result with
  | .ok _ => ⟨0, outputs, backend⟩
  | .error e => failed http outputs (.session e) backend

/-- The configuration: of the file that the command line names, or an empty
one. -/
def configuration (line : CommandLine) (s : Surroundings) : Except Failure Config :=
  match line.config with
  | none => .ok .empty
  | some path =>
    match Config.load (s.file path) with
    | .ok config => .ok config
    | .error cause => .error (.config path cause)

/-- Everything that is settled before the first command. -/
def prepare (line : CommandLine) (s : Surroundings) : Except Failure (Settings × Logger) :=
  match configuration line s with
  | .error f => .error f
  | .ok config =>
    match Settings.resolve line config s.localHost with
    | .error cause => .error (.host cause)
    | .ok settings =>
      match settings.logging.filter s.environment.logFilter with
      | .error cause => .error (.logging cause)
      | .ok filter => .ok (settings, ⟨filter, settings.logging.json⟩)

/-- Runs the commands with the client that the settings call for. -/
def runCommands (settings : Settings) (logger : Logger) (commands : List String)
    (s : Surroundings) : Run :=
  let opening := (contextEvents settings.context).flatMap logger.outputs
  if settings.dryRun then
    finished s.http logger opening
      (execute settings.context DryRun.client commands ⟨DryRun.start, s.now⟩) s.backend
  else
    let key := settings.apiKey.getD ⟨""⟩
    match SeriesClient.create settings.host key settings.delivery s.backend with
    | .error e => failed s.http opening (.setup e) s.backend
    | .ok client =>
      let outcome := execute settings.context SeriesClient.client commands ⟨client, s.now⟩
      finished s.http logger opening outcome outcome.world.client.backend

/-- Runs the program. -/
def run (s : Surroundings) (args : List String) : Run :=
  match CommandLine.read s.environment args with
  | .error (.help full) => ⟨0, [.answer (CommandLine.helpText s.environment full)], s.backend⟩
  | .error .version => ⟨0, [.answer CommandLine.versionText], s.backend⟩
  | .error (.problem p) => ⟨2, [.complaint p.report], s.backend⟩
  | .ok line =>
    match prepare line s with
    | .error f => failed s.http [] f s.backend
    | .ok (settings, logger) => runCommands settings logger line.commands s

end MetricStream.Program
