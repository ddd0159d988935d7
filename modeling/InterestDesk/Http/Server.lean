import InterestDesk.Desk.Service
import InterestDesk.Exposition
import InterestDesk.Http.ClientId
import InterestDesk.Http.Form
import InterestDesk.Text.Cut
/-!
# Server — requests to the service over HTTP

The calculation is a POST; the other three pages are read with GET or HEAD.  Every calculation request, and no other,
is counted, under the outcome that its answer shows.  It is counted before it is answered, so a request that is left
without an answer, its wait being more than 64 bits of seconds can say, has been counted as well.
-/
namespace InterestDesk
namespace Http

structure HttpRequest where
  method : String
  /-- the path, with a query if there is one; the scheme and the host may stand before it -/
  target : String
  headers : Headers
  peer : Address
  body : Bytes

structure HttpResponse where
  status : Nat
  headers : Headers
  body : String

/-- What the clocks show while a request is answered. -/
structure Moment where
  now : Int
  uptimeSeconds : Nat
  latencyMicros : UInt64

inductive Route where
  | calculation | health | metrics | devtools
  deriving DecidableEq

namespace Route

def all : List Route :=
  [calculation, health, metrics, devtools]

def path : Route → String
  | calculation => "/calculate_interest"
  | health => "/health"
  | metrics => "/metrics"
  | devtools => "/.well-known/appspecific/com.chrome.devtools.json"

def isSchemeChar (c : Char) : Bool :=
  c.isAlphanum || "+-.".toList.contains c

/-- A target from its path on: a scheme and a host may stand before it. -/
def fromPath (target : List Char) : List Char :=
  match Text.cutAt? "://".toList target with
  | some (scheme, rest) =>
    if scheme.all isSchemeChar then rest.dropWhile fun c => c != '/' && c != '?' && c != '#' else target
  | none => target

/-- The page of a target; the path must match exactly. -/
def ofTarget? (target : String) : Option Route :=
  let path := (fromPath target.toList).takeWhile fun c => c != '?' && c != '#'
  all.find? (·.path.toList == path)

theorem ofTarget?_path (route : Route) : ofTarget? route.path = some route := by
  cases route <;> decide

/-- The methods of a page, as the header that lists them. -/
def allowed : Route → String
  | calculation => "POST"
  | _ => "GET,HEAD"

end Route

namespace HttpResponse

def notFound : HttpResponse :=
  ⟨404, [], ""⟩

def methodNotAllowed (route : Route) : HttpResponse :=
  ⟨405, [("allow", route.allowed)], ""⟩

def json (status : Nat) (headers : Headers) (body : String) : HttpResponse :=
  ⟨status, (contentType, "application/json") :: headers, body⟩

end HttpResponse

/-- The seconds to wait as a header says them: rounded up, and at least one.  They are summed in 64 bits, and a sum that
leaves these is not said. -/
def retryAfterSeconds? (wait : Nat) : Option Nat :=
  let seconds := Clock.secondsUp wait
  if seconds < UInt64.size then some (max 1 seconds) else none

def outcomeOf : Except ServiceError Response → Outcome
  | .error _ => .error
  | .ok response =>
    if response.rateLimited then .rateLimited
    else match response.outcome with
      | .ok _ => .computed
      | .error _ => .failed

/-- The answer to a calculation request.  There is none if the wait cannot be said: the sum stops the request, and its
connection ends without an answer. -/
def answerOf? : Except ServiceError Response → Option HttpResponse
  | .error e => some (.json 500 [] (Payload.error ("Internal server error: " ++ e.message)).json)
  | .ok response =>
    let body := (Payload.ofOutcome response.outcome).json
    if response.rateLimited then
      (retryAfterSeconds? response.retryAfter).map fun seconds => .json 429 [("retry-after", toString seconds)] body
    else some (.json 200 [] body)

/-- The visit to the calculator that a calculation request asks for. -/
def visitOf (moment : Moment) (r : HttpRequest) : Visit :=
  ⟨clientId r.headers r.peer, readFields r.headers r.body, moment.now⟩

/-- Answers a calculation request with what the service said, and counts it, answered or not. -/
def conclude (moment : Moment) : Except ServiceError Response × Service → Option HttpResponse × Service
  | (response, s) => (answerOf? response, { s with tally := s.tally.record (outcomeOf response) moment.latencyMicros })

def calculate (s : Service) (moment : Moment) (r : HttpRequest) : Option HttpResponse × Service :=
  conclude moment (s.ask (visitOf moment r))

def page (s : Service) (moment : Moment) : Route → HttpResponse
  | .metrics => ⟨200, [(contentType, "text/plain; version=0.0.4")], Exposition.text s.tally moment.uptimeSeconds⟩
  | .devtools => .json 200 [] (Text.Json.object [])
  | _ => ⟨200, [(contentType, "text/plain; charset=utf-8")], "OK"⟩

def serve (s : Service) (moment : Moment) (r : HttpRequest) : Option HttpResponse × Service :=
  match Route.ofTarget? r.target with
  | none => (some .notFound, s)
  | some .calculation =>
    if r.method = "POST" then calculate s moment r else (some (.methodNotAllowed .calculation), s)
  | some route =>
    if r.method = "GET" then (some (page s moment route), s)
    else if r.method = "HEAD" then (some { page s moment route with body := "" }, s)
    else (some (.methodNotAllowed route), s)

/-- Whether a request asks for a calculation. -/
def HttpRequest.isCalculation (r : HttpRequest) : Bool :=
  Route.ofTarget? r.target == some .calculation && r.method == "POST"

/-- Answers a request that the service closes over: a calculation is not done any more, another page is as ever. -/
def serveCutShort (s : Service) (moment : Moment) (r : HttpRequest) : Option HttpResponse × Service :=
  if r.isCalculation then conclude moment s.cutShort
  else ((serve s moment r).1, s.close)

end Http
end InterestDesk
