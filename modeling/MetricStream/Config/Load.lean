/-
Loading a configuration file.

A file may be missing, may not be text, may not be a document, or may be a
document that is no configuration. A number that the document format cannot
express spoils a document only if it is no configuration for another reason
either: keys read it in their own range.
-/
import MetricStream.Config
import MetricStream.Text.Octets
import MetricStream.Toml.Document

namespace MetricStream.Config

/-- Why a file was not loaded. -/
inductive LoadError where
  | missing
  | notText
  | malformed
  | schema (cause : SchemaError)
deriving DecidableEq

namespace LoadError

/-- The file could not be read at all. -/
def isUnreadable : LoadError → Bool
  | .missing => true
  | .notText => true
  | _ => false

/-- What went wrong with the file at a path. -/
def message (e : LoadError) (path : String) : String :=
  if e.isUnreadable then "Failed to read config file at " ++ Text.quote path
  else "Failed to parse TOML from " ++ Text.quote path

/-- Why, if there is more to say. -/
def detail? : LoadError → Option String
  | .missing => some "No such file or directory (os error 2)"
  | .notText => some "stream did not contain valid UTF-8"
  | .malformed => none
  | .schema cause => some cause.message

/-- The error's own text, and after it the text of what caused it. -/
def chain (e : LoadError) (path : String) : List String := e.message path :: e.detail?.toList

end LoadError

/-- The configuration that a document's text spells. -/
def ofText (text : List Char) : Except LoadError Config :=
  match Toml.readDocument? text with
  | none => .error .malformed
  | some entries =>
    match ofEntries entries with
    | .ok config => .ok config
    | .error cause =>
      .error (if Toml.entriesFit entries then .schema cause else .malformed)

/-- The configuration in a file with this content; `none` is no file. -/
def load (content : Option (List UInt8)) : Except LoadError Config :=
  match content with
  | none => .error .missing
  | some octets =>
    match Text.Octets.decodeStrict octets with
    | none => .error .notText
    | some text => ofText text

end MetricStream.Config
