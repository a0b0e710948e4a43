/-
The configuration file: a TOML document with a fixed set of keys.

Every key may be left out and no other is accepted. A value has the kind that
its key calls for, and nothing is converted. A section is a table, or an array
that holds the section's values in order. Keys are looked at in the order of
their code points, and the first that offends is the one reported, so a
document's outcome does not depend on how it is arranged.
-/
import MetricStream.Decimal.Layout
import MetricStream.Text.Quoted
import MetricStream.Toml.Value

namespace MetricStream

/-- How to reach the backend, as far as a file says. -/
structure DeliverySection where
  apiUrl : Option String
  timeoutMillis : Option Nat
deriving DecidableEq

/-- How to log, as far as a file says. -/
structure LoggingSection where
  level : Option String
  json : Option Bool
deriving DecidableEq

/-- What a configuration file says. -/
structure Config where
  scope : Option String
  tags : Option String
  host : Option String
  delivery : DeliverySection
  logging : LoggingSection
deriving DecidableEq

def DeliverySection.empty : DeliverySection := ⟨none, none⟩

def LoggingSection.empty : LoggingSection := ⟨none, none⟩

/-- What an empty file says. -/
def Config.empty : Config := ⟨none, none, none, .empty, .empty⟩

namespace Config

/-! ## What can be wrong -/

/-- What a key calls for. -/
inductive Expected where
  | string
  | natural
  | boolean
  | deliverySection
  | loggingSection
deriving DecidableEq

def Expected.text : Expected → String
  | .string => "a string"
  | .natural => "u64"
  | .boolean => "a boolean"
  | .deliverySection => "struct DatadogConfig"
  | .loggingSection => "struct LoggingConfig"

/-- The kind of a value, with the value itself where it is short. -/
inductive Kind where
  | integer (n : Int)
  | float (x : Binary64)
  | boolean (b : Bool)
  | string (s : String)
  | sequence
  | map
deriving DecidableEq

/-- The kind of a value. A date counts as a map. -/
def Kind.of : Toml.Value → Kind
  | .string s => .string s
  | .integer n => .integer n
  | .float x => .float x
  | .unreadable => .float .nan
  | .boolean b => .boolean b
  | .date _ => .map
  | .array _ => .sequence
  | .table _ => .map

/-- Numbers in these messages: never with an exponent, and of two equally near
decimals the greater. -/
def numberLayout : Decimal.Layout where
  plainFrom := -400
  plainBelow := 400
  plusSign := false
  tie := .up
  nan := "NaN"
  infinity := "inf"
  negativeInfinity := "-inf"

/-- A text in code quotes. -/
def coded (s : String) : String := "\x60" ++ s ++ "\x60"

def Kind.text : Kind → String
  | .integer n => "integer " ++ coded n.repr
  | .float x => "floating point " ++ coded (numberLayout.text x)
  | .boolean b => "boolean " ++ coded (if b then "true" else "false")
  | .string s => "string " ++ Text.quote s
  | .sequence => "sequence"
  | .map => "map"

/-- Why a document is no configuration. -/
inductive SchemaError where
  | unknownKey (key : String) (known : List String)
  | wrongKind (found : Kind) (expected : Expected)
  | outOfRange (n : Int) (expected : Expected)
deriving DecidableEq

/-- The keys that may stand in a place: two with "or", more in a list. -/
def oneOf : List String → String
  | [a, b] => coded a ++ " or " ++ coded b
  | keys => "one of " ++ ", ".intercalate (keys.map coded)

def SchemaError.message : SchemaError → String
  | .unknownKey key known => "unknown field " ++ coded key ++ ", expected " ++ oneOf known
  | .wrongKind found expected => "invalid type: " ++ found.text ++ ", expected " ++ expected.text
  | .outOfRange n expected =>
    "invalid value: integer " ++ coded n.repr ++ ", expected " ++ expected.text

/-! ## Values -/

def readString : Toml.Value → Except SchemaError String
  | .string s => .ok s
  | v => .error (.wrongKind (Kind.of v) .string)

def readBoolean : Toml.Value → Except SchemaError Bool
  | .boolean b => .ok b
  | v => .error (.wrongKind (Kind.of v) .boolean)

/-- The first natural number past a word of 64 bits. -/
def naturalLimit : Nat := 18446744073709551616

def readNatural : Toml.Value → Except SchemaError Nat
  | .integer n =>
    if 0 ≤ n ∧ n < naturalLimit then .ok n.toNat else .error (.outOfRange n .natural)
  | v => .error (.wrongKind (Kind.of v) .natural)

/-! ## Entries -/

/-- Whether one key comes before another, or is the same: by code points, a
shorter key before those that start with it. -/
def keyBefore : List Char → List Char → Bool
  | [], _ => true
  | _ :: _, [] => false
  | a :: as, b :: bs => a.toNat < b.toNat || (a == b && keyBefore as bs)

/-- Entries in the order of their keys. -/
def inKeyOrder (entries : Toml.Entries) : Toml.Entries :=
  entries.mergeSort fun a b => keyBefore a.1.toList b.1.toList

/-- Reads entries in the order of their keys. -/
def readEntries {α : Type} (put : α → String → Toml.Value → Except SchemaError α) (start : α)
    (entries : Toml.Entries) : Except SchemaError α :=
  (inKeyOrder entries).foldlM (fun s e => put s e.1 e.2) start

/-- The single key of the table that stands for a date. -/
def dateKey : String := "$__toml_private_datetime"

/-- Reads a section. An array has the values of the section's keys in order,
and what is over does not count. -/
def readSection {α : Type} (put : α → String → Toml.Value → Except SchemaError α) (start : α)
    (keys : List String) (expected : Expected) : Toml.Value → Except SchemaError α
  | .table entries => readEntries put start entries
  | .array items => (keys.zip items).foldlM (fun s e => put s e.1 e.2) start
  | .date text => put start dateKey (.string text)
  | v => .error (.wrongKind (Kind.of v) expected)

end Config

namespace DeliverySection

open Config

def keys : List String := ["api_url", "timeout_ms"]

/-- The section with one more key. -/
def put (s : DeliverySection) (key : String) (v : Toml.Value) :
    Except SchemaError DeliverySection :=
  match key with
  | "api_url" => (readString v).map fun url => { s with apiUrl := some url }
  | "timeout_ms" => (readNatural v).map fun n => { s with timeoutMillis := some n }
  | _ => .error (.unknownKey key keys)

def ofValue (v : Toml.Value) : Except SchemaError DeliverySection :=
  readSection put empty keys .deliverySection v

end DeliverySection

namespace LoggingSection

open Config

def keys : List String := ["level", "json"]

/-- The section with one more key. -/
def put (s : LoggingSection) (key : String) (v : Toml.Value) :
    Except SchemaError LoggingSection :=
  match key with
  | "level" => (readString v).map fun level => { s with level := some level }
  | "json" => (readBoolean v).map fun b => { s with json := some b }
  | _ => .error (.unknownKey key keys)

def ofValue (v : Toml.Value) : Except SchemaError LoggingSection :=
  readSection put empty keys .loggingSection v

end LoggingSection

namespace Config

def keys : List String := ["namespace", "tags", "host", "datadog", "logging"]

/-- The configuration with one more key. -/
def put (c : Config) (key : String) (v : Toml.Value) : Except SchemaError Config :=
  match key with
  | "namespace" => (readString v).map fun s => { c with scope := some s }
  | "tags" => (readString v).map fun s => { c with tags := some s }
  | "host" => (readString v).map fun s => { c with host := some s }
  | "datadog" => (DeliverySection.ofValue v).map fun s => { c with delivery := s }
  | "logging" => (LoggingSection.ofValue v).map fun s => { c with logging := s }
  | _ => .error (.unknownKey key keys)

/-- What a document says, or the first thing that is wrong with it. -/
def ofEntries (entries : Toml.Entries) : Except SchemaError Config :=
  readEntries put empty entries

end Config

end MetricStream
