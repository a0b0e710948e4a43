/-
The variables that a process is started with, as far as this program looks at
them. A variable that is set to the empty text is set.
-/
namespace MetricStream

structure Environment where
  /-- The API key, where no option gives one. -/
  apiKey : Option String
  /-- The backend's address, where no option gives one. -/
  apiUrl : Option String
  /-- The log filter, in place of the configured one. -/
  logFilter : Option String
deriving DecidableEq

namespace Environment

/-- The names of the variables, in the order of the fields. -/
def apiKeyName : String := "DD_API_KEY"
def apiUrlName : String := "DD_API_URL"
def logFilterName : String := "RUST_LOG"

/-- The variables as a lookup by name gives them. -/
def ofLookup (lookup : String → Option String) : Environment :=
  ⟨lookup apiKeyName, lookup apiUrlName, lookup logFilterName⟩

end Environment

end MetricStream
