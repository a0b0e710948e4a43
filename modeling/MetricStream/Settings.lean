/-
Settings: what a run goes by, decided once before it starts.

Each setting has one value, from the highest-ranked source that gives it: the
command line, for the address then the environment, then the configuration
file, then the default. A source gives a value also where it is empty. The
host's default is the machine's own name, which the system may fail to tell. JSON
logging is on if either the command line or the file turns it on.
-/
import MetricStream.CommandLine
import MetricStream.Config
import MetricStream.Context
import MetricStream.Delivery.Options
import MetricStream.Log.Filter
import MetricStream.Text.Octets
import MetricStream.Text.Quoted

namespace MetricStream

structure Settings where
  context : Context
  /-- The host that metrics are reported for. -/
  host : String
  apiKey : Option ApiKey
  dryRun : Bool
  delivery : DeliveryOptions
  logging : Log.Options
deriving DecidableEq

/-! ## The machine's own name -/

/-- Why the machine's own name cannot be told. -/
inductive HostError where
  /-- The system does not give it. -/
  | unavailable (cause : String)
  /-- It is no text. -/
  | notText (octets : List UInt8)
deriving DecidableEq

namespace HostError

def message : HostError → String
  | .unavailable _ => "unable to get hostname"
  | .notText octets =>
    "hostname " ++ Text.quote (String.ofList (Text.Octets.decodeLossy octets)) ++ " is not valid UTF-8"

/-- The error's own text, and after it the text of what caused it. -/
def chain : HostError → List String
  | .unavailable cause => [message (.unavailable cause), cause]
  | e => [e.message]

end HostError

/-- A machine's own name, as the system gives it: octets, or the text of why it
does not. -/
abbrev LocalHost := Except String (List UInt8)

/-- The text of a machine's own name. -/
def LocalHost.read : LocalHost → Except HostError String
  | .error cause => .error (.unavailable cause)
  | .ok octets =>
    match Text.Octets.decodeStrict octets with
    | some text => .ok (String.ofList text)
    | none => .error (.notText octets)

/-! ## Precedence -/

/-- Settles everything but the host. -/
def Settings.withHost (line : CommandLine) (file : Config) (host : String) : Settings where
  context :=
    { scope := .ofText ((line.scope.or file.scope).getD "")
      tags := readTags ((line.tags.or file.tags).getD "") }
  host := host
  apiKey := line.apiKey
  dryRun := line.dryRun
  delivery :=
    { apiUrl := (line.apiUrl.or file.delivery.apiUrl).getD DeliveryOptions.default.apiUrl
      timeout := (file.delivery.timeoutMillis.map .ofMillis).getD DeliveryOptions.default.timeout }
  logging :=
    { level := file.logging.level.getD Log.Options.default.level
      json := line.logJson || file.logging.json.getD false }

/-- Settles everything. The machine's own name is asked for only where no other
source gives a host. -/
def Settings.resolve (line : CommandLine) (file : Config) (localHost : LocalHost) :
    Except HostError Settings :=
  match line.host.or file.host with
  | some host => .ok (withHost line file host)
  | none => localHost.read.map (withHost line file)

end MetricStream
