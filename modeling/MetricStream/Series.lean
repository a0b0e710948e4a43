/-
Series: the points that wait for delivery, one for each series.

A series is a kind of metric, a name and an exact list of tags. A gauge's point
holds the last value written and when that was; a counter's point holds the
sum of what was added and when the first of it was. Points stand in the order
in which their series were first written.
-/
import MetricStream.Binary64

namespace MetricStream

/-- The kind of a series. -/
inductive MetricKind where
  | gauge
  | count
deriving DecidableEq, Repr

/-- The kind as submissions spell it. -/
def MetricKind.name : MetricKind → String
  | .gauge => "gauge"
  | .count => "count"

/-- What tells series apart. The order of tags counts. -/
structure SeriesKey where
  kind : MetricKind
  metric : String
  tags : List String
deriving DecidableEq

/-- A value written to a series, at a whole second. -/
structure Write where
  key : SeriesKey
  value : Binary64
  second : Int
deriving DecidableEq

/-- What is to be delivered for a series. -/
structure Point where
  key : SeriesKey
  value : Binary64
  second : Int
deriving DecidableEq

namespace Point

/-- The point of a series with one write. -/
def ofWrite (w : Write) : Point := ⟨w.key, w.value, w.second⟩

/-- A point after another write to its series. -/
def amend (p : Point) (w : Write) : Point :=
  match p.key.kind with
  | .gauge => { p with value := w.value, second := w.second }
  | .count => { p with value := p.value + w.value }

end Point

/-- The points after a write: its series' point amended, or a new one at the
end. -/
def record (w : Write) : List Point → List Point
  | [] => [.ofWrite w]
  | p :: ps => if p.key = w.key then p.amend w :: ps else p :: record w ps

end MetricStream
