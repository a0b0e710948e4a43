/-
Log filters: which events are written.

A filter is a list of directives between commas, empty ones left out. A
directive is a level alone, a target alone, or a target and a level joined by
an equals sign; a target alone lets everything of it through. Of the directives
that an event's target starts with, the one with the longest target decides,
and of equals the last. No directive at all lets only errors through.
-/
import MetricStream.Log.Event
import MetricStream.Text.Alphanumeric

namespace MetricStream.Log

/-- How much a directive lets through: nothing, or a level and all graver
ones. -/
inductive Threshold where
  | off
  | upTo (level : Level)
deriving DecidableEq, Repr

/-- How far down the scale a level is, from one for the gravest. -/
def Level.rank : Level → Nat
  | .error => 1
  | .warn => 2
  | .info => 3
  | .debug => 4
  | .trace => 5

/-- The level gets past the threshold. -/
def Threshold.admits (t : Threshold) (level : Level) : Bool :=
  match t with
  | .off => false
  | .upTo limit => level.rank ≤ limit.rank

/-- The thresholds by number. -/
def Threshold.numbered? : Nat → Option Threshold
  | 0 => some .off
  | 1 => some (.upTo .error)
  | 2 => some (.upTo .warn)
  | 3 => some (.upTo .info)
  | 4 => some (.upTo .debug)
  | 5 => some (.upTo .trace)
  | _ => none

/-- The thresholds by name, in any letter case. -/
def Threshold.named? (word : String) : Option Threshold :=
  match word.toLower with
  | "off" => some .off
  | "error" => some (.upTo .error)
  | "warn" => some (.upTo .warn)
  | "info" => some (.upTo .info)
  | "debug" => some (.upTo .debug)
  | "trace" => some (.upTo .trace)
  | _ => none

/-- The digits of a natural number that may have a plus sign before it. -/
def numberDigits : List Char → List Char
  | '+' :: digits => digits
  | digits => digits

/-- The threshold that a word spells, as a number or as a name. -/
def Threshold.read? (word : String) : Option Threshold :=
  let digits := numberDigits word.toList
  if digits ≠ [] ∧ digits.all Char.isDigit then numbered? (Nat.ofDigitChars 10 digits 0)
  else named? word

/-- One directive of a filter. -/
structure Directive where
  /-- What the targets it concerns start with; nothing for all of them. -/
  target : Option String
  threshold : Threshold
deriving DecidableEq, Repr

/-- Why a text is no directive. -/
inductive FilterError where
  /-- What follows the equals sign is no level. -/
  | level
  /-- It does not start like a directive. -/
  | directive
deriving DecidableEq, Repr

/-- The error's own text, and after it the texts of what caused it. -/
def FilterError.chain : FilterError → List String
  | .level =>
    let text := "error parsing level filter: expected one of \"off\", \"error\", \"warn\", "
      ++ "\"info\", \"debug\", \"trace\", or a number 0-5"
    [text, text]
  | .directive => ["invalid filter directive"]

namespace Directive

/-- What a directive may start with: a letter, a digit, or a character that
names are joined with. -/
def canStart (c : Char) : Bool := Text.isAlphanumeric c || c = '-' || c = ':' || c = '_'

/-- The directive that a text spells. Blanks around a level or a target alone
make it a target, blanks and all; a level after an equals sign is none if
blanks are before the target or after the level. -/
def read (text : List Char) : Except FilterError Directive :=
  match Text.trim text with
  | [] => .error .directive
  | c :: _ =>
    if canStart c then
      let name := text.takeWhile (· ≠ '=')
      match text.drop name.length with
      | [] =>
        match Threshold.read? (String.ofList text) with
        | some threshold => .ok ⟨none, threshold⟩
        | none => .ok ⟨some (String.ofList text), .upTo .trace⟩
      | _ :: word =>
        if Text.trimStart text ≠ text then .error .level
        else if word = [] then .ok ⟨some (String.ofList name), .upTo .trace⟩
        else match Threshold.read? (String.ofList word) with
          | some threshold => .ok ⟨some (String.ofList name), threshold⟩
          | none => .error .level
    else .error .directive

/-- The directive concerns a target. -/
def concerns (d : Directive) (target : String) : Bool :=
  match d.target with
  | none => true
  | some start => start.toList.isPrefixOf target.toList

/-- How much of a target the directive names. -/
def reach (d : Directive) : Nat :=
  match d.target with
  | none => 0
  | some start => start.utf8ByteSize + 1

end Directive

/-- A list of directives. -/
structure Filter where
  directives : List Directive
deriving DecidableEq, Repr

namespace Filter

/-- The filter that a text spells, or what is wrong with its first directive
that is none. -/
def read (text : String) : Except FilterError Filter :=
  (((Text.cut ',' text.toList).filter (· ≠ [])).mapM Directive.read).map Filter.mk

/-- Of two directives, the one that decides. -/
def decisive (best : Option Directive) (d : Directive) : Option Directive :=
  match best with
  | none => some d
  | some b => if b.reach ≤ d.reach then some d else some b

/-- An event of this target and level is written. -/
def admits (f : Filter) (target : String) (level : Level) : Bool :=
  if f.directives = [] then level == .error
  else
    match (f.directives.filter (·.concerns target)).foldl decisive none with
    | some d => d.threshold.admits level
    | none => false

end Filter

/-- How log lines are filtered and written. -/
structure Options where
  /-- The filter, unless the environment gives a valid one. -/
  level : String
  /-- One JSON object a line in place of plain text. -/
  json : Bool
deriving DecidableEq, Repr

def Options.default : Options := ⟨"info", false⟩

/-- A filter that could not be read. -/
structure InvalidLevel where
  level : String
  cause : FilterError
deriving DecidableEq, Repr

def InvalidLevel.message (e : InvalidLevel) : String := "Invalid log level " ++ Text.quote e.level

/-- The error's own text, and after it the texts of what caused it. -/
def InvalidLevel.chain (e : InvalidLevel) : List String := e.message :: e.cause.chain

/-- The filter of a run: the environment's if it is valid, else the option's. -/
def Options.filter (o : Options) (environment : Option String) : Except InvalidLevel Filter :=
  let fallback := match Filter.read o.level with
    | .ok f => .ok f
    | .error cause => .error ⟨o.level, cause⟩
  match environment with
  | none => fallback
  | some text =>
    match Filter.read text with
    | .ok f => .ok f
    | .error _ => fallback

end MetricStream.Log
