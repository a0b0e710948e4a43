/-
Single arguments of the command line, and what each is on its own.

An option is spelled in full after two hyphens; a value may be attached with an
equals sign. Three have a letter, and letters may stand together after one
hyphen, where the first that takes a value takes the rest. Whatever is not
spelled exactly like an option is a word.
-/
namespace MetricStream.CommandLine

/-- An option that takes a value. -/
inductive Parameter where
  | scope
  | tags
  | config
  | host
  | apiKey
  | apiUrl
deriving DecidableEq, Repr

/-- An option that is there or not. -/
inductive Flag where
  | dryRun
  | logJson
deriving DecidableEq, Repr

namespace Parameter

def name : Parameter → String
  | .scope => "namespace"
  | .tags => "tags"
  | .config => "config"
  | .host => "host"
  | .apiKey => "api-key"
  | .apiUrl => "api-url"

/-- What the value is called. -/
def valueName : Parameter → String
  | .scope => "PREFIX"
  | .tags => "CSV"
  | .config => "PATH"
  | .host => "HOST"
  | .apiKey => "API_KEY"
  | .apiUrl => "API_URL"

/-- The option as messages show it. -/
def shown (p : Parameter) : String := "--" ++ p.name ++ " <" ++ p.valueName ++ ">"

/-- The option with a name. -/
def named? : String → Option Parameter
  | "namespace" => some .scope
  | "tags" => some .tags
  | "config" => some .config
  | "host" => some .host
  | "api-key" => some .apiKey
  | "api-url" => some .apiUrl
  | _ => none

theorem named?_name (p : Parameter) : named? p.name = some p := by cases p <;> rfl

end Parameter

namespace Flag

def name : Flag → String
  | .dryRun => "dry-run"
  | .logJson => "log-json"

/-- The option as messages show it. -/
def shown (f : Flag) : String := "--" ++ f.name

end Flag

/-- What an argument is on its own. -/
inductive Argument where
  /-- An option that takes a value, and the value if it is attached. -/
  | parameter (p : Parameter) (attached : Option String)
  | flag (f : Flag)
  | help (full : Bool)
  | version
  /-- An option that takes no value, with one. -/
  | overfull (name value : String)
  /-- Two hyphens alone: no options follow. -/
  | terminator
  | word
deriving DecidableEq, Repr

/-- What a flag, the help or the version is with this attached. -/
def Argument.plain (name : String) (attached : Option String) (alone : Argument) : Argument :=
  match attached with
  | some value => .overfull name value
  | none => alone

/-- What two hyphens, a name and perhaps a value are. -/
def Argument.ofName (name : String) (attached : Option String) : Argument :=
  match name with
  | "dry-run" => .plain name attached (.flag .dryRun)
  | "log-json" => .plain name attached (.flag .logJson)
  | "help" => .plain name attached (.help true)
  | "version" => .plain name attached .version
  | _ =>
    match Parameter.named? name with
    | some p => .parameter p attached
    | none => .word

/-- A letter that stands for an option. -/
def isOptionLetter (c : Char) : Bool := c == 'c' || c == 'h' || c == 'V'

/-- What letters after one hyphen are. They are options only together. -/
def Argument.ofLetters (letters : List Char) : Argument :=
  if letters.all isOptionLetter then
    match letters with
    | [] => .word
    | ['c'] => .parameter .config none
    | 'c' :: rest => .parameter .config (some (String.ofList rest))
    | 'h' :: _ => .help false
    | _ => .version
  else .word

/-- What the text after two hyphens is. -/
def Argument.ofLong (text : List Char) : Argument :=
  let name := text.takeWhile (· ≠ '=')
  match text.drop name.length with
  | [] => .ofName (String.ofList name) none
  | _ :: value => .ofName (String.ofList name) (some (String.ofList value))

/-- What an argument is. -/
def Argument.ofText (arg : String) : Argument :=
  match arg.toList with
  | ['-', '-'] => .terminator
  | '-' :: '-' :: text => .ofLong text
  | '-' :: letters => .ofLetters letters
  | _ => .word

end MetricStream.CommandLine
