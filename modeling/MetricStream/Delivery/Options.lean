/-
How a client reaches the backend.
-/
import MetricStream.Duration

namespace MetricStream

/-- Where the backend is, and how long to wait for its answers. -/
structure DeliveryOptions where
  apiUrl : String
  timeout : Duration
deriving DecidableEq

/-- The public address, and ten seconds for each request. -/
def DeliveryOptions.default : DeliveryOptions := ⟨"https://api.datadoghq.com", .ofMillis 10000⟩

end MetricStream
