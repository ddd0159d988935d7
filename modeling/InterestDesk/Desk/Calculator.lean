import InterestDesk.Admission.Limiter
import InterestDesk.Request
import InterestDesk.Text.Json
/-!
# Calculator — rate-limited calculations

A request passes the limiter before its form is read, so a turned away form is never read and an admitted one counts
even when it is faulty.
-/
namespace InterestDesk

structure Response where
  outcome : Except Refusal String
  rateLimited : Bool
  retryAfter : Nat

namespace Response

/-- The answer of a calculation that was turned away. -/
def rejected (retryAfter : Nat) : Response :=
  ⟨.error .rateLimited, true, retryAfter⟩

def completed (outcome : Except Refusal String) : Response :=
  ⟨outcome, false, 0⟩

end Response

/-- The body of an answer: a result or an error text, never both. -/
inductive Payload where
  | result (text : String)
  | error (message : String)

namespace Payload

def ofOutcome : Except Refusal String → Payload
  | .ok text => result text
  | .error refusal => error refusal.message

def json : Payload → String
  | result text => Text.Json.object [("result", text)]
  | error message => Text.Json.object [("error", message)]

end Payload

structure Calculator where
  limiter : Limiter
  style : ReportStyle

namespace Calculator

/-- Answers a form of `client` at `now`, and gives the calculator after it. -/
def handle (c : Calculator) (client : String) (fields : Fields) (now : Int) : Response × Calculator :=
  let (decision, limiter) := c.limiter.check client now
  let response :=
    if decision.allowed then Response.completed (calculate fields c.style)
    else Response.rejected decision.retryAfter
  (response, { c with limiter })

end Calculator
end InterestDesk
