/-
A sign at the front of a typed number or duration.
-/
namespace MetricStream.Text

/-- Takes one sign off the front: whether it is a minus, and the rest. A text
without a sign is its own rest. -/
def takeSign : List Char → Bool × List Char
  | '-' :: cs => (true, cs)
  | '+' :: cs => (false, cs)
  | cs => (false, cs)

end MetricStream.Text
