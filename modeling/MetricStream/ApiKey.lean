/-
API keys: secrets that authorise submissions. A key goes into one header of
each request and is shown nowhere.
-/
import MetricStream.Text.Blank

namespace MetricStream

/-- A secret that authorises submissions. It is never shown. -/
structure ApiKey where
  secret : String
deriving DecidableEq

namespace ApiKey

/-- The key as it may be shown. -/
def shown (_ : ApiKey) : String := "ApiKey(Secret([REDACTED alloc::string::String]))"

instance : ToString ApiKey := ⟨shown⟩

/-- Nothing but blanks, which is no key. -/
def isBlank (key : ApiKey) : Bool := (Text.trim key.secret.toList).isEmpty

end ApiKey

end MetricStream
