/-
Log lines: events as text, and as JSON.

A line of text has the level, the message and each field as `name=value`, all
as they are. A line of JSON is an object with the level and the fields; there
the message is a field like the others, and numbers are numbers.
-/
import MetricStream.Log.Event
import MetricStream.Submission

namespace MetricStream.Log

/-- Numbers in log text: positional from `0.0001` up to sixteen digits, no sign
before a positive exponent, and of two equally near decimals the greater. -/
def numberLayout : Decimal.Layout where
  plainFrom := -4
  plainBelow := 16
  plusSign := false
  tie := .up
  nan := "NaN"
  infinity := "inf"
  negativeInfinity := "-inf"

/-- A number in log text. -/
def numberText (x : Binary64) : String := numberLayout.text x

namespace FieldValue

/-- The value as log text shows it. -/
def shown : FieldValue → String
  | .text s => s
  | .number x => numberText x

/-- The value in a JSON line. -/
def toJson : FieldValue → Json
  | .text s => .string s
  | .number x => Json.ofBinary64 x

end FieldValue

namespace Event

/-- The line of text: level, message, fields. -/
def line (e : Event) : String :=
  " ".intercalate (e.level.name :: e.message :: e.fields.map fun (name, v) => name ++ "=" ++ v.shown)

/-- The fields in JSON, the message first. -/
def jsonFields (e : Event) : Json :=
  .object (("message", .string e.message) :: e.fields.map fun (name, v) => (name, v.toJson))

/-- The line of JSON. -/
def json (e : Event) : Json :=
  .object [("level", .string e.level.name), ("fields", e.jsonFields)]

end Event

end MetricStream.Log
