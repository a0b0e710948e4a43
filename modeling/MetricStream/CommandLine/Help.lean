/-
What the program says of itself: its version, its help as a summary and in
full, and what is wrong with a command line.
-/
import MetricStream.CommandLine

namespace MetricStream.CommandLine

/-- The program's name. -/
def program : String := "dogcmd"

/-- The line that names the program and its version. -/
def versionText : String := program ++ " 1.0.0-unstable\n"

/-- How the program is called. -/
def usageLine : String := "Usage: " ++ program ++ " [OPTIONS] [COMMAND]..."

/-! ## Options -/

/-- What help says of an option. -/
structure OptionHelp where
  letter : Option Char
  shown : String
  /-- What the option is for, in a summary and in full. -/
  purpose : Bool → String
  /-- The variable that fills in for it, as help shows it. -/
  variableNote : Option String

/-- What an option is for, the same in every help. -/
def OptionHelp.of (letter : Option Char) (shown purpose : String) : OptionHelp :=
  ⟨letter, shown, fun _ => purpose, none⟩

/-- The options in their order. The address that the environment gives is
shown, the key is not. -/
def optionHelps (env : Environment) : List OptionHelp :=
  [.of none Parameter.scope.shown
      "Prefix applied to every metric name, a trailing '.' is added if missing",
    .of none Parameter.tags.shown "Comma separated tags attached to every metric",
    .of (some 'c') Parameter.config.shown "Optional TOML configuration file",
    .of none Parameter.host.shown
      "Host reported with every metric, defaults to the local hostname",
    { OptionHelp.of none Parameter.apiKey.shown "Datadog API key" with
      variableNote := some ("[env: " ++ Environment.apiKeyName ++ "]") },
    { OptionHelp.of none Parameter.apiUrl.shown "Datadog API base URL" with
      variableNote := some ("[env: " ++ Environment.apiUrlName ++ "=" ++ env.apiUrl.getD "" ++ "]") },
    .of none Flag.dryRun.shown "Log commands without sending anything",
    .of none Flag.logJson.shown "Write logs as JSON lines",
    ⟨some 'h', "--help",
      fun full =>
        if full then "Print help (see a summary with '-h')" else "Print help (see more with '--help')",
      none⟩,
    .of (some 'V') "--version" "Print version"]

/-- So many spaces. -/
def spaces (n : Nat) : String := String.ofList (List.replicate n ' ')

/-- The text with its further lines indented. -/
def indentRest (n : Nat) (s : String) : String :=
  String.ofList (s.toList.flatMap fun c => if c = '\n' then c :: List.replicate n ' ' else [c])

namespace OptionHelp

/-- The option itself, at the left. -/
def left (o : OptionHelp) : String :=
  (match o.letter with
    | some c => String.ofList [' ', ' ', '-', c, ',', ' ']
    | none => spaces 6) ++ o.shown

/-- Where a summary says what options are for. -/
def summaryColumn : Nat := 28

/-- Where full help says what options are for. -/
def fullColumn : Nat := 10

/-- The option in a summary. -/
def summary (o : OptionHelp) : String :=
  let note := match o.variableNote with
    | some note => " " ++ note
    | none => ""
  o.left ++ spaces (summaryColumn - o.left.length) ++
    indentRest summaryColumn (o.purpose false ++ note) ++ "\n"

/-- The option in full help. -/
def full (o : OptionHelp) : String :=
  let note := match o.variableNote with
    | some note => "\n\n" ++ note
    | none => ""
  o.left ++ "\n" ++ spaces fullColumn ++ indentRest fullColumn (o.purpose true ++ note) ++ "\n"

end OptionHelp

/-! ## Help -/

/-- The commands, and two examples. -/
def commandHelp : String :=
  "COMMANDS:\n"
    ++ "        gauge|g <name> <value>    set a gauge\n"
    ++ "        count|c <name> <value>    add <value> to a counter\n"
    ++ "        incr|i <name>             add one to a counter\n"
    ++ "        decr|d <name>             subtract one from a counter\n"
    ++ "        sleep|s <duration>        pause, e.g. 500ms, 2s, 1m30s\n"
    ++ "        flush|f                   deliver buffered metrics\n"
    ++ "\n"
    ++ "    EXAMPLES:\n"
    ++ "        dogcmd --namespace=deploy --tags=env:prod gauge duration 12.5 incr count flush\n"
    ++ "        dogcmd gauge queue.depth 10 sleep 1s gauge queue.depth 4 flush\n"

/-- The help, in full or as a summary. -/
def helpText (env : Environment) (full : Bool) : String :=
  let purpose :=
    if full then
      "dogcmd reads a flat list of commands from its arguments and sends the matching metrics "
        ++ "to Datadog, one command at a time, stopping at the first error."
    else "Emit Datadog metrics from the command line"
  let arguments :=
    if full then "  [COMMAND]...\n          Commands to run, in order\n"
    else "  [COMMAND]...  Commands to run, in order\n"
  let options := (optionHelps env).map fun o => if full then o.full else o.summary
  purpose ++ "\n\n" ++ usageLine ++ "\n\nArguments:\n" ++ arguments ++ "\nOptions:\n"
    ++ (if full then "\n" else "").intercalate options ++ "\n" ++ commandHelp

/-! ## Problems -/

namespace Problem

/-- A repeated option or flag. -/
def isRepeated : Problem → Bool
  | .repeatedParameter _ => true
  | .repeatedFlag _ => true
  | _ => false

def message : Problem → String
  | .missingValue p =>
    "error: a value is required for '" ++ p.shown ++ "' but none was supplied"
  | .repeatedParameter p =>
    "error: the argument '" ++ p.shown ++ "' cannot be used multiple times"
  | .repeatedFlag f => "error: the argument '" ++ f.shown ++ "' cannot be used multiple times"
  | .surplusValue option value =>
    "error: unexpected value '" ++ value ++ "' for '--" ++ option
      ++ "' found; no more were expected"

/-- The problem with what may help against it. -/
def report (p : Problem) : String :=
  p.message ++ "\n\n" ++ (if p.isRepeated then usageLine ++ "\n\n" else "")
    ++ "For more information, try '--help'.\n"

end Problem

end MetricStream.CommandLine
