/-
Web addresses: where a submission goes.

An address is read leniently, as browsers read one: blanks around it and tabs
and line breaks anywhere are ignored, slashes may lean either way, `.` and `..`
are followed, and characters that an address cannot hold are percent-encoded.
What is left is a host, the number of the service to connect to there, the
target to ask it for, and the name and the password to ask with, if it has
them. Only `http` and `https` addresses with a host can be submitted to.
-/
import MetricStream.Delivery.Host
import MetricStream.Text.Base64

namespace MetricStream.Delivery

/-- A web address, resolved. -/
structure Url where
  secure : Bool
  host : String
  /-- The number of the service on the host. -/
  service : Nat
  /-- The path and the query, without the fragment. -/
  target : String
  /-- Who asks: a name, a colon and a password. -/
  credentials : Option String
deriving DecidableEq, Inhabited

namespace Url

/-- The headers that the address itself asks for. -/
def headers (url : Url) : List (String × String) :=
  url.credentials.toList.map fun text =>
    ("authorization", "Basic " ++ String.ofList (Text.Base64.encode text.toUTF8.toList))

/-! ## Characters -/

/-- A control of ASCII or the space. -/
def isControlOrSpace (c : Char) : Bool := c.toNat ≤ 0x20

/-- A slash, whichever way it leans. -/
def isSlash (c : Char) : Bool := c == '/' || c == '\\'

/-- The character with a slash put upright. -/
def upright (c : Char) : Char := if c = '\\' then '/' else c

/-- What a path holds as it is. -/
def inPath (c : Char) : Bool :=
  0x20 < c.toNat && c.toNat < 0x7F
    && ['"', '#', '<', '>', '?', '\x60', '\x7b', '\x7d'].all (· ≠ c)

/-- What a query holds as it is. -/
def inQuery (c : Char) : Bool :=
  0x20 < c.toNat && c.toNat < 0x7F && ['"', '#', '<', '>', '\x27'].all (· ≠ c)

/-! ## The parts of an address -/

/-- What an address is made of, as it is written: the scheme before the first
colon, then who asks and where, and then what for. -/
structure Parts where
  scheme : List Char
  authority : List Char
  rest : List Char

/-- What an authority does not end at. -/
def inAuthority (c : Char) : Bool := !isSlash c && c ≠ '?' && c ≠ '#'

/-- The text without what is ignored in it. -/
def cleaned (cs : List Char) : List Char :=
  let trimmed := ((cs.dropWhile isControlOrSpace).reverse.dropWhile isControlOrSpace).reverse
  trimmed.filter fun c => c ≠ '\t' && c ≠ '\n' && c ≠ '\r'

/-- The parts of a text with a colon. -/
def parts? (cs : List Char) : Option Parts :=
  match cs.dropWhile (· ≠ ':') with
  | [] => none
  | _ :: rest =>
    let rest := rest.dropWhile isSlash
    some ⟨cs.takeWhile (· ≠ ':'), rest.takeWhile inAuthority, rest.dropWhile inAuthority⟩

/-- Whether the scheme is the secure one, if it is one of the two. -/
def secure? (scheme : List Char) : Option Bool :=
  match String.ofList (scheme.map Char.toLower) with
  | "http" => some false
  | "https" => some true
  | _ => none

/-- Who asks, and where. -/
def splitUser (authority : List Char) : List Char × List Char :=
  let place := (authority.reverse.takeWhile (· ≠ '@')).reverse
  (authority.take (authority.length - place.length - 1), place)

/-- The name and the password of who asks. Where the name is no text, neither is
told, and a password that is no text is not. -/
def credentials? (user : List Char) : Option String := do
  let name ← Text.Octets.decodeStrict (Text.Percent.decode (user.takeWhile (· ≠ ':')))
  let typed := (user.dropWhile (· ≠ ':')).drop 1
  let password := if typed = [] then none else Text.Octets.decodeStrict (Text.Percent.decode typed)
  if name = [] && password.isNone then none
  else some (String.ofList (name ++ ':' :: password.getD []))

/-- A host and the service number written after it, if one is. -/
def splitService (place : List Char) : List Char × Option (List Char) :=
  match place with
  | '[' :: _ =>
    let host := place.takeWhile (· ≠ ']')
    match place.dropWhile (· ≠ ']') with
    | ']' :: ':' :: digits => (host ++ [']'], some digits)
    | rest => (host ++ rest, none)
  | place =>
    match place.dropWhile (· ≠ ':') with
    | ':' :: digits => (place.takeWhile (· ≠ ':'), some digits)
    | _ => (place, none)

/-- The service number that is written, or the usual one. -/
def service? (secure : Bool) (digits : Option (List Char)) : Option Nat :=
  match digits.getD [] with
  | [] => some (if secure then 443 else 80)
  | digits =>
    if digits.all Char.isDigit then (some (Nat.ofDigitChars 10 digits 0)).filter (· ≤ 65535) else none

/-! ## The target -/

/-- A segment that stays where it is. -/
def isHere (segment : List Char) : Bool :=
  [".", "%2e"].contains (String.ofList (segment.map Char.toLower))

/-- A segment that leads back to the one above. -/
def isUp (segment : List Char) : Bool :=
  ["..", ".%2e", "%2e.", "%2e%2e"].contains (String.ofList (segment.map Char.toLower))

/-- Follows the segments from those already followed, which are in reverse. A
path that ends on the way ends with a slash. -/
def follow (followed : List (List Char)) : List (List Char) → List (List Char)
  | [] => followed
  | segment :: rest =>
    let next :=
      if isUp segment then (if rest = [] then [] :: followed.drop 1 else followed.drop 1)
      else if isHere segment then (if rest = [] then [] :: followed else followed)
      else Text.Percent.encode inPath segment :: followed
    follow next rest

/-- The path of what follows the authority. -/
def path (cs : List Char) : List Char :=
  let segments := Text.cut '/' (cs.map upright)
  -- The slash that a path starts with has nothing before it.
  let segments := if segments.head? = some [] && 1 < segments.length then segments.drop 1 else segments
  (follow [] segments).reverse.flatMap ('/' :: ·)

/-- The target of what follows the authority: path and query. -/
def targetOf (cs : List Char) : List Char :=
  let address := cs.takeWhile (· ≠ '#')
  match address.dropWhile (· ≠ '?') with
  | [] => path address
  | mark :: query =>
    path (address.takeWhile (· ≠ '?')) ++ mark :: Text.Percent.encode inQuery query

/-! ## Reading -/

/-- Resolves an address from its parts. -/
def ofParts? (plainName : String → Option String) (p : Parts) : Option Url := do
  let secure ← secure? p.scheme
  let (user, place) := splitUser p.authority
  let (name, digits) := splitService place
  let host ← Host.read? plainName name
  let service ← service? secure digits
  some ⟨secure, host, service, String.ofList (targetOf p.rest), credentials? user⟩

/-- Resolves an address. -/
def read? (plainName : String → Option String) (text : String) : Option Url :=
  (parts? (cleaned text.toList)).bind (ofParts? plainName)

example : read? (fun _ => none) " HTTP:\\\\a%40b:c@Web-01:8080/p/./q/..?x y#z" =
    some ⟨false, "web-01", 8080, "/p/?x%20y", some "a@b:c"⟩ := by decide +kernel

example : (Url.mk true "h" 443 "/" (some "user:pass")).headers =
    [("authorization", "Basic dXNlcjpwYXNz")] := by decide +kernel

end Url

end MetricStream.Delivery
