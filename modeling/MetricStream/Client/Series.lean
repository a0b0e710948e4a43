/-
The buffering client: it keeps one point for each series, and submits them all
at once on a flush and on the close.

Nothing is delivered in between and nothing twice: the points are given up as
soon as their submission is attempted, whatever comes of it. A value that is
not finite is refused and buffers nothing. Once closed, the client refuses
everything but another close, which has nothing left to do.
-/
import MetricStream.ApiKey
import MetricStream.Client
import MetricStream.Delivery.Backend
import MetricStream.Delivery.Options
import MetricStream.Submission

namespace MetricStream

/-- A buffering client. -/
structure SeriesClient where
  host : String
  apiKey : ApiKey
  /-- Where submissions are posted. -/
  address : String
  pending : List Point
  closed : Bool
  backend : Delivery.Backend

namespace SeriesClient

/-- What names this program to the backend. -/
def userAgent : String := "dogcmd/1.0.0-unstable"

/-- Where series are submitted, below the base address. -/
def seriesPath : String := "/api/v1/series"

/-- The base address without the slashes at its end, and the path. -/
def seriesAddress (apiUrl : String) : String :=
  String.ofList (apiUrl.toList.reverse.dropWhile (· == '/')).reverse ++ seriesPath

/-- A new client with nothing buffered. A blank key makes none. -/
def create (host : String) (key : ApiKey) (options : DeliveryOptions)
    (backend : Delivery.Backend) : Except ClientError SeriesClient :=
  if key.isBlank then .error .missingApiKey
  else .ok ⟨host, key, seriesAddress options.apiUrl, [], false, backend⟩

/-- The headers of every submission. -/
def headers (key : ApiKey) : List (String × String) :=
  [("DD-API-KEY", key.secret), ("content-type", "application/json"), ("user-agent", userAgent)]

/-- What a reply means for the client. -/
def judge (reply : Delivery.Reply) : Except ClientError Unit :=
  match reply with
  | .lost => .error .request
  | .answered status body =>
    if reply.isAccepted then .ok ()
    else .error (.status status (String.ofList (Text.Octets.decodeMarked body)))

/-- Gives up the points that wait, and submits them if there are any. -/
def submit (s : SeriesClient) : SeriesClient × Except ClientError Unit :=
  if s.pending = [] then (s, .ok ())
  else
    let (backend, reply) :=
      s.backend.post s.address (headers s.apiKey) (Submission.body s.host s.pending)
    ({ s with pending := [], backend }, judge reply)

/-- Buffers a value. -/
def write (s : SeriesClient) (key : SeriesKey) (value : Binary64) (now : Instant) :
    SeriesClient × Except ClientError Unit :=
  if s.closed then (s, .error .closed)
  else if value.isFinite then
    ({ s with pending := record ⟨key, value, now.seconds⟩ s.pending }, .ok ())
  else (s, .error (.nonFinite key.metric))

def flush (s : SeriesClient) : SeriesClient × Except ClientError Unit :=
  if s.closed then (s, .error .closed) else s.submit

def close (s : SeriesClient) : SeriesClient × Except ClientError Unit :=
  if s.closed then (s, .ok ()) else { s with closed := true }.submit

/-- The client's answers. It has no way of its own to increment or decrement. -/
def client : Client SeriesClient := Client.viaCount
  { answer := fun now call s => match call with
      | .gauge metric value tags => s.write ⟨.gauge, metric, tags⟩ value now
      | .count metric value tags => s.write ⟨.count, metric, tags⟩ value now
      | .flush => s.flush
      | .close => s.close
      | _ => (s, .ok ()) }

end SeriesClient

end MetricStream
