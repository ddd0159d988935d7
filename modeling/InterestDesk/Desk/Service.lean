import InterestDesk.Desk.Calculator
import InterestDesk.Tally
/-!
# Service — the one calculator behind all callers

Requests reach the calculator one at a time.  Once closed, the service answers no request and its calculator stays as
it is.
-/
namespace InterestDesk

/-- A request on its way to the calculator. -/
structure Visit where
  client : String
  fields : Fields
  now : Int

inductive ServiceError where
  /-- the request could not be handed in -/
  | closed
  /-- the service closed over a request that was handed in -/
  | dropped
  deriving DecidableEq

def ServiceError.message : ServiceError → String
  | closed => "Calculator actor has shut down"
  | dropped => "Calculator actor dropped response channel"

structure Service where
  calculator : Calculator
  isOpen : Bool
  tally : Tally

namespace Service

def start (calculator : Calculator) : Service :=
  ⟨calculator, true, Tally.fresh⟩

def close (s : Service) : Service :=
  { s with isOpen := false }

/-- Hands a visit to the calculator and notes how many clients it tracks afterwards. -/
def ask (s : Service) (visit : Visit) : Except ServiceError Response × Service :=
  if s.isOpen then
    let (response, calculator) := s.calculator.handle visit.client visit.fields visit.now
    (.ok response, { s with calculator, tally := s.tally.noteActiveClients calculator.limiter.size })
  else (.error .closed, s)

/-- Closes the service over a request that was handed in and not yet handled. -/
def cutShort (s : Service) : Except ServiceError Response × Service :=
  (.error (if s.isOpen then .dropped else .closed), s.close)

end Service
end InterestDesk
