/-
Submissions: the text that carries points to the backend.

One JSON object with one field, the list of series. Each series has its metric,
its kind, its single point as a pair of second and value, the reporting host,
and its tags. A value that is no finite number has no JSON text and becomes
`null`.
-/
import MetricStream.Decimal.Layout
import MetricStream.Json
import MetricStream.Series

namespace MetricStream

/-- Numbers in JSON text: positional from `0.00001` up to sixteen digits, with
the sign of the exponent always written past that, and of two equally near
decimals the even one. -/
def Json.numberLayout : Decimal.Layout where
  plainFrom := -5
  plainBelow := 16
  plusSign := true
  tie := .toEven
  nan := "null"
  infinity := "null"
  negativeInfinity := "null"

/-- A number's JSON value. -/
def Json.ofBinary64 (x : Binary64) : Json :=
  if x.isFinite then .number (numberLayout.text x) else .null

/-- A whole number's JSON value. -/
def Json.ofInt (n : Int) : Json := .number n.repr

namespace Submission

/-- The entry of one point. -/
def entry (host : String) (p : Point) : Json :=
  .object
    [("metric", .string p.key.metric),
     ("type", .string p.key.kind.name),
     ("points", .array [.array [.ofInt p.second, .ofBinary64 p.value]]),
     ("host", .string host),
     ("tags", .array (p.key.tags.map .string))]

/-- The JSON value of a submission. -/
def json (host : String) (points : List Point) : Json :=
  .object [("series", .array (points.map (entry host)))]

/-- The body of a submission. -/
def body (host : String) (points : List Point) : String :=
  String.ofList (json host points).render

end Submission

end MetricStream
