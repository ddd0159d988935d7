import InterestDesk.Desk.Service
/-!
# Mailbox — many callers at one service

Any number of callers share a mailbox with room for a few letters.  A call waits for room, puts its letter in, and
waits on a reply slot of its own; its caller may stop waiting at any time.  The service takes the letters in order, one
at a time, and replies whether or not anyone still waits.  Callers and service take their steps in any order.
-/
namespace InterestDesk

/-- A visit in writing, with the number of the call that gets the reply. -/
structure Letter where
  call : Nat
  visit : Visit

/-- How far a call has come. -/
inductive Stage where
  /-- waits for room in the mailbox -/
  | sending
  /-- its letter is in the mailbox or with the service -/
  | waiting
  /-- the reply lies in its slot -/
  | replied (response : Response)
  /-- over: this is what its caller was told -/
  | told (answer : Except ServiceError Response)
  /-- over: its caller stopped waiting -/
  | abandoned

def Stage.isOver : Stage → Bool
  | told _ => true
  | abandoned => true
  | _ => false

/-- Puts a reply into the slot of a call; it is lost if nobody waits for it. -/
def Stage.deliver (response : Response) : Stage → Stage
  | waiting => replied response
  | stage => stage

structure Call where
  visit : Visit
  stage : Stage

inductive Activity where
  | idle
  | handling (letter : Letter)
  | replying (call : Nat) (response : Response)

structure Mailbox where
  room : Nat
  /-- the calls in the order they began; a call is known by its place -/
  calls : List Call
  /-- the oldest first -/
  letters : List Letter
  activity : Activity
  service : Service

namespace Mailbox

def start (room : Nat) (calculator : Calculator) : Mailbox :=
  ⟨room, [], [], .idle, Service.start calculator⟩

def stage? (m : Mailbox) (i : Nat) : Option Stage :=
  m.calls[i]?.map Call.stage

def restage (m : Mailbox) (i : Nat) (f : Stage → Stage) : Mailbox :=
  { m with calls := m.calls.modify i fun call => { call with stage := f call.stage } }

def mark (m : Mailbox) (i : Nat) (stage : Stage) : Mailbox :=
  m.restage i fun _ => stage

def inHand (m : Mailbox) : List Letter :=
  match m.activity with
  | .handling letter => [letter]
  | _ => []

inductive Event where
  | begin (visit : Visit)
  | send (letter : Letter)
  | take (letter : Letter)
  | handle (letter : Letter) (response : Response)
  | reply (call : Nat) (response : Response)
  | receive (call : Nat) (response : Response)
  | abandon (call : Nat)
  | close
  | refuse (call : Nat)
  /-- a call whose letter was left behind learns that the service has closed -/
  | lose (call : Nat)

inductive Step : Mailbox → Event → Mailbox → Prop where
  | begin {m : Mailbox} (visit : Visit) :
      Step m (.begin visit) { m with calls := m.calls ++ [⟨visit, .sending⟩] }
  | send {m : Mailbox} {i : Nat} {visit : Visit} (isOpen : m.service.isOpen = true)
      (room : m.letters.length < m.room) (call : m.calls[i]? = some ⟨visit, .sending⟩) :
      Step m (.send ⟨i, visit⟩) { m.mark i .waiting with letters := m.letters ++ [⟨i, visit⟩] }
  | take {m : Mailbox} {letter : Letter} {rest : List Letter} (idle : m.activity = .idle)
      (letters : m.letters = letter :: rest) :
      Step m (.take letter) { m with letters := rest, activity := .handling letter }
  | handle {m : Mailbox} {letter : Letter} {response : Response} {service : Service}
      (handling : m.activity = .handling letter) (ask : m.service.ask letter.visit = (.ok response, service)) :
      Step m (.handle letter response) { m with activity := .replying letter.call response, service }
  | reply {m : Mailbox} {i : Nat} {response : Response} (replying : m.activity = .replying i response) :
      Step m (.reply i response) { m.restage i (.deliver response) with activity := .idle }
  | receive {m : Mailbox} {i : Nat} {response : Response} (replied : m.stage? i = some (.replied response)) :
      Step m (.receive i response) (m.mark i (.told (.ok response)))
  | abandon {m : Mailbox} {i : Nat} {stage : Stage} (stands : m.stage? i = some stage)
      (notOver : stage.isOver = false) : Step m (.abandon i) (m.mark i .abandoned)
  /-- the service may end whenever it is between two letters, and leaves those in the mailbox behind -/
  | close {m : Mailbox} (idle : m.activity = .idle) :
      Step m .close { m with letters := [], service := m.service.close }
  | refuse {m : Mailbox} {i : Nat} (closed : m.service.isOpen = false) (sending : m.stage? i = some .sending) :
      Step m (.refuse i) (m.mark i (.told (.error .closed)))
  | lose {m : Mailbox} {i : Nat} (closed : m.service.isOpen = false) (waiting : m.stage? i = some .waiting) :
      Step m (.lose i) (m.mark i (.told (.error .dropped)))

/-- A run of steps, with its events in order. -/
inductive Run (start : Mailbox) : List Event → Mailbox → Prop where
  | nil : Run start [] start
  | snoc {events : List Event} {e : Event} {m m' : Mailbox} : Run start events m → Step m e m' →
      Run start (events ++ [e]) m'

end Mailbox
end InterestDesk
