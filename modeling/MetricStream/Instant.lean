/-
Points in time, to the nanosecond, and the whole seconds that series are
stamped with.
-/
import MetricStream.Duration

namespace MetricStream

/-- A point in time, in nanoseconds since the start of 1970. -/
structure Instant where
  nanos : Int
deriving DecidableEq, Repr

namespace Instant

def ofSeconds (s : Int) : Instant := ⟨s * 1000000000⟩

/-- The whole seconds since the start of 1970, rounded down. -/
def seconds (t : Instant) : Int := Int.fdiv t.nanos 1000000000

/-- The point in time that much later. -/
def after (t : Instant) (d : Duration) : Instant := ⟨t.nanos + d.nanos⟩

end Instant

end MetricStream
