/-
The backend: who receives submissions, and how it answers them.

A backend listens at some addresses, and answers the requests it receives by a
script, by number. A request reaches it if its address resolves to one of these
and its headers can be written; otherwise, and where the script gives no
answer, posting fails without one.
-/
import MetricStream.Delivery.Url
import MetricStream.Text.Octets

namespace MetricStream.Delivery

/-- A request as it was received. -/
structure Request where
  method : String
  /-- The path and the query asked for. -/
  target : String
  headers : List (String × String)
  body : String
deriving DecidableEq

/-- The value of a request's header. -/
def Request.header? (r : Request) (name : String) : Option String :=
  (r.headers.find? (·.1 == name)).map (·.2)

/-- How the backend answers one request. -/
inductive Reply where
  | answered (status : Nat) (body : List UInt8)
  /-- The connection ends, or the wait for it does, without an answer. -/
  | lost
deriving DecidableEq

/-- The reply says that the request was accepted: a status of the two hundreds. -/
def Reply.isAccepted : Reply → Bool
  | .answered status _ => 200 ≤ status && status < 300
  | .lost => false

/-- What arrives of a reply. An informational status is waited past, in vain, a
status outside three digits cannot be read, and three kinds of answers end with
their headers. -/
def Reply.arriving : Reply → Reply
  | .lost => .lost
  | .answered status body =>
    if status = 101 ∨ status = 204 ∨ status = 304 then .answered status []
    else if 200 ≤ status ∧ status < 1000 then .answered status body
    else .lost

/-- A backend, and the requests it has received. -/
structure Backend where
  /-- The spelling of a host's name that is not plain, if the network has one. -/
  plainName : String → Option String
  /-- The address leads to the backend. -/
  listensAt : Url → Bool
  /-- The reply to each request, counted from zero. -/
  script : Nat → Reply
  received : List Request

namespace Backend

/-- A backend that has received nothing, and listens without encryption to one
service of a host. -/
def plain (host : String) (service : Nat) (script : Nat → Reply) : Backend where
  plainName _ := none
  listensAt url := !url.secure && url.host == host && url.service == service
  script := script
  received := []

/-- The script with these replies first, and acceptance of everything after. -/
def scriptOf (replies : List Reply) : Nat → Reply :=
  fun i => replies.getD i (.answered 202 [])

/-- A header's value can be written: it holds no control character but the
tab. -/
def canCarry (value : String) : Bool :=
  value.toList.all fun c => (0x20 ≤ c.toNat || c = '\t') && c.toNat ≠ 0x7F

/-- Posts a body to an address. The reply is `lost` if the request could not be
made. -/
def post (b : Backend) (address : String) (headers : List (String × String)) (body : String) :
    Backend × Reply :=
  match Url.read? b.plainName address with
  | none => (b, .lost)
  | some url =>
    if headers.all (fun h => canCarry h.2) && b.listensAt url then
      ({ b with received := b.received ++ [⟨"POST", url.target, url.headers ++ headers, body⟩] },
        (b.script b.received.length).arriving)
    else (b, .lost)

end Backend

end MetricStream.Delivery
