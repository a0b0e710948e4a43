/-
The command line: options, then commands.

Arguments are read from the left. The first that is no option starts the
commands, and from there on everything is a command as it stands, whatever it
looks like; two hyphens alone are left out and have the same effect. An option
stands at most once. The environment fills in for two options that are not
given.
-/
import MetricStream.ApiKey
import MetricStream.CommandLine.Argument
import MetricStream.Environment

namespace MetricStream

/-- A command line that was read. -/
structure CommandLine where
  scope : Option String
  tags : Option String
  /-- The path of the configuration file. -/
  config : Option String
  host : Option String
  apiKey : Option ApiKey
  apiUrl : Option String
  dryRun : Bool
  logJson : Bool
  commands : List String
deriving DecidableEq

namespace CommandLine

/-- What is wrong with a command line. -/
inductive Problem where
  | missingValue (p : Parameter)
  | repeatedParameter (p : Parameter)
  | repeatedFlag (f : Flag)
  | surplusValue (option value : String)
deriving DecidableEq, Repr

/-- Why there is nothing to run. -/
inductive Stop where
  | problem (p : Problem)
  /-- Help was asked for, in full or as a summary. -/
  | help (full : Bool)
  | version
deriving DecidableEq, Repr

/-- The options read so far. -/
structure Draft where
  values : List (Parameter × String)
  flags : List Flag

namespace Draft

def empty : Draft := ⟨[], []⟩

/-- The value that was given for an option. -/
def value? (d : Draft) (p : Parameter) : Option String :=
  (d.values.find? (·.1 == p)).map (·.2)

/-- The path is the only value that may not be empty. -/
def allows (p : Parameter) (value : String) : Bool := p ≠ .config || value ≠ ""

/-- The draft with one more value. -/
def give (d : Draft) (p : Parameter) (value : String) : Except Stop Draft :=
  if (d.value? p).isSome then .error (.problem (.repeatedParameter p))
  else if allows p value then .ok { d with values := (p, value) :: d.values }
  else .error (.problem (.missingValue p))

/-- The draft with one more flag. -/
def raise (d : Draft) (f : Flag) : Except Stop Draft :=
  if f ∈ d.flags then .error (.problem (.repeatedFlag f))
  else .ok { d with flags := f :: d.flags }

/-- The command line with these options and commands; the environment fills in
what it may. -/
def finish (d : Draft) (env : Environment) (commands : List String) : CommandLine where
  scope := d.value? .scope
  tags := d.value? .tags
  config := d.value? .config
  host := d.value? .host
  apiKey := ((d.value? .apiKey).or env.apiKey).map ApiKey.mk
  apiUrl := (d.value? .apiUrl).or env.apiUrl
  dryRun := decide (.dryRun ∈ d.flags)
  logJson := decide (.logJson ∈ d.flags)
  commands := commands

end Draft

/-- A surplus value at the front. It is noticed before anything is made of the
option to its left whose value stands apart. -/
def surplus? : List String → Option Stop
  | [] => none
  | arg :: _ =>
    match Argument.ofText arg with
    | .overfull option value => some (.problem (.surplusValue option value))
    | _ => none

/-- The value that stands apart from its option, at the front. Any word will
do, and no option. -/
def separateValue (p : Parameter) : List String → Except Stop (String × List String)
  | [] => .error (.problem (.missingValue p))
  | arg :: rest =>
    if Argument.ofText arg = .word then .ok (arg, rest)
    else .error (.problem (.missingValue p))

theorem separateValue_length {p : Parameter} {args rest : List String} {value : String}
    (h : separateValue p args = .ok (value, rest)) : args.length = rest.length + 1 := by
  unfold separateValue at h
  split at h
  · cases h
  · split at h
    · cases h; rfl
    · cases h

/-- Reads arguments after the options in a draft: all options, and the commands
after them. -/
def readFrom (d : Draft) (args : List String) : Except Stop (Draft × List String) :=
  match args with
  | [] => .ok (d, [])
  | arg :: rest =>
    match Argument.ofText arg with
    | .terminator => .ok (d, rest)
    | .word => .ok (d, arg :: rest)
    | .help full => .error (.help full)
    | .version => .error .version
    | .overfull option value => .error (.problem (.surplusValue option value))
    | .flag f =>
      match d.raise f with
      | .error e => .error e
      | .ok d => readFrom d rest
    | .parameter p (some value) =>
      match d.give p value with
      | .error e => .error e
      | .ok d => readFrom d rest
    | .parameter p none =>
      match surplus? rest with
      | some e => .error e
      | none =>
        match _h : separateValue p rest with
        | .error e => .error e
        | .ok (value, rest) =>
          match surplus? rest with
          | some e => .error e
          | none =>
            match d.give p value with
            | .error e => .error e
            | .ok d => readFrom d rest
termination_by args.length
decreasing_by
  · simp
  · simp
  · have := separateValue_length _h
    simp only [List.length_cons]
    omega

/-- Reads a command line. -/
def read (env : Environment) (args : List String) : Except Stop CommandLine :=
  (readFrom .empty args).map fun (d, commands) => d.finish env commands

end CommandLine

end MetricStream
