/-
Log events: what a run reports of itself.

An event has a level, a message and named fields. A completed command is
reported once, under the long name of its verb whatever spelling was typed.
-/
import MetricStream.Context
import MetricStream.Client
import MetricStream.Verb

namespace MetricStream.Log

/-- How grave an event is, the gravest first. -/
inductive Level where
  | error
  | warn
  | info
  | debug
  | trace
deriving DecidableEq, Repr

/-- The level as log lines show it. -/
def Level.name : Level → String
  | .error => "ERROR"
  | .warn => "WARN"
  | .info => "INFO"
  | .debug => "DEBUG"
  | .trace => "TRACE"

/-- Something to report. -/
inductive Event where
  | settingNamespace (ns : Namespace)
  | settingTags (tags : List String)
  | gauge (metric : String) (value : Binary64)
  | count (metric : String) (value : Binary64)
  | incr (metric : String)
  | decr (metric : String)
  | sleep (duration : Duration)
  | flush
  /-- The close failed after a command had failed already. -/
  | closeFailed (error : ClientError)
  /-- The program broke down. -/
  | panicked (message : String)
deriving DecidableEq

/-- The value of a field. -/
inductive FieldValue where
  | text (s : String)
  | number (x : Binary64)
deriving DecidableEq

namespace Event

def level : Event → Level
  | .closeFailed _ => .warn
  | .panicked _ => .error
  | _ => .info

/-- The verb of the command that completed, if the event reports one. -/
def verb? : Event → Option Verb
  | .gauge _ _ => some .gauge
  | .count _ _ => some .count
  | .incr _ => some .incr
  | .decr _ => some .decr
  | .sleep _ => some .sleep
  | .flush => some .flush
  | _ => none

def message : Event → String
  | .settingNamespace _ => "setting namespace"
  | .settingTags _ => "setting tags"
  | .gauge _ _ => "gauge"
  | .count _ _ => "count"
  | .incr _ => "incr"
  | .decr _ => "decr"
  | .sleep _ => "sleep"
  | .flush => "flush"
  | .closeFailed _ => "unable to close metrics client after failure"
  | .panicked _ => "dogcmd panicked!"

/-- A list of texts, each quoted, between brackets. -/
def quotedList (items : List String) : String :=
  "[" ++ ", ".intercalate (items.map Text.quote) ++ "]"

/-- The fields besides the verb. -/
def details : Event → List (String × FieldValue)
  | .settingNamespace ns => [("namespace", .text ns.text)]
  | .settingTags tags => [("tags", .text (quotedList tags))]
  | .gauge metric value => [("metric", .text metric), ("value", .number value)]
  | .count metric value => [("metric", .text metric), ("value", .number value)]
  | .incr metric => [("metric", .text metric)]
  | .decr metric => [("metric", .text metric)]
  | .sleep duration => [("duration", .text (toString duration))]
  | .flush => []
  | .closeFailed error => [("error", .text error.message)]
  | .panicked message => [("panic_message", .text message)]

/-- All fields, in order. -/
def fields (e : Event) : List (String × FieldValue) :=
  match e.verb? with
  | some v => ("verb", .text v.name) :: e.details
  | none => e.details

/-- What filters know an event by: the part of the program that reports it. -/
def target : Event → String
  | .settingNamespace _ => "dogcmd::cli::cli"
  | .settingTags _ => "dogcmd::cli::cli"
  | .closeFailed _ => "dogcmd::cli::cli"
  | .panicked _ => "dogcmd::instrumentation::tracing"
  | _ => "dogcmd::interpreter::interpreter"

end Event

/-- What the report of a breakdown says, from what was thrown: its text if it
was one. -/
def Event.ofPayload (payload : Option String) : Event :=
  .panicked (payload.getD "Unknown panic")

end MetricStream.Log
