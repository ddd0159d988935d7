import InterestDesk.Http.Address
import InterestDesk.Http.Header
import InterestDesk.Text.Blank
/-!
# ClientId — whom a request is counted for

Behind a proxy it is the first entry of the first forwarding header; without a usable one it is the peer's address.
-/
namespace InterestDesk
namespace Http

/-- The header in which a proxy names the client. -/
def forwardedFor : String :=
  "x-forwarded-for"

/-- The entry before the first comma, trimmed; none if it is blank. -/
def firstEntry? (value : List Char) : Option (List Char) :=
  let entry := Text.trim (value.takeWhile (· != ','))
  if entry.isEmpty then none else some entry

/-- The client that a request with these headers from this peer is counted for. -/
def clientId (headers : Headers) (peer : Address) : String :=
  match (headers.firstVisible? forwardedFor).bind firstEntry? with
  | some entry => String.ofList entry
  | none => peer.text

end Http
end InterestDesk
