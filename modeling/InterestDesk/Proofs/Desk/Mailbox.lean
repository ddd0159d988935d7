import InterestDesk.Desk.Mailbox
import InterestDesk.Proofs.Desk.Transcript
/-!
# Mailbox — what every run of the mailbox keeps

The history of a run is read off its events: which visits were begun, which letters came into the mailbox, which were
handled with what response, and which replies were received.  Three invariants tie it to the state.  `Channel`: the
letters are handled in order, each once, as by one calculator alone.  `Addressed`: a letter is that of its own call.
`Replies`: what a call holds is the response to its letter.  None of them looks at which callers are still there.
-/
namespace InterestDesk
namespace Mailbox

open Calculator (after_concat transcript_concat)

/-- The visits of the calls begun, in order. -/
def begun (events : List Event) : List Visit :=
  events.filterMap fun
    | .begin visit => some visit
    | _ => none

/-- The letters that came into the mailbox, in order. -/
def sent (events : List Event) : List Letter :=
  events.filterMap fun
    | .send letter => some letter
    | _ => none

/-- The letters that were handled, in order, each with the response to it. -/
def handled (events : List Event) : List (Letter × Response) :=
  events.filterMap fun
    | .handle letter response => some (letter, response)
    | _ => none

/-- The calls whose caller received a reply, in order, each with that reply. -/
def received (events : List Event) : List (Nat × Response) :=
  events.filterMap fun
    | .receive call response => some (call, response)
    | _ => none

theorem filterMap_concat_of_eq_none {α : Type} {g : Event → Option α} {e : Event} (h : g e = none)
    (events : List Event) : (events ++ [e]).filterMap g = events.filterMap g := by
  rw [List.filterMap_append, List.filterMap_cons_none h, List.filterMap_nil, List.append_nil]

theorem begun_append (events more : List Event) : begun (events ++ more) = begun events ++ begun more :=
  List.filterMap_append

theorem sent_append (events more : List Event) : sent (events ++ more) = sent events ++ sent more :=
  List.filterMap_append

theorem handled_append (events more : List Event) : handled (events ++ more) = handled events ++ handled more :=
  List.filterMap_append

theorem received_append (events more : List Event) : received (events ++ more) = received events ++ received more :=
  List.filterMap_append

/-- The letters that were handled are those that came first, and they were handled as by `calculator` alone. -/
structure Channel (calculator : Calculator) (events : List Event) (m : Mailbox) : Prop where
  isOpen : m.service.isOpen = true
  sent_eq : sent events = (handled events).map Prod.fst ++ m.inHand ++ m.letters
  transcript_eq : (handled events).map (fun entry => (entry.1.visit, entry.2)) =
    calculator.transcript ((handled events).map fun entry => entry.1.visit)
  calculator_eq : m.service.calculator = calculator.after ((handled events).map fun entry => entry.1.visit)
  gauge : handled events ≠ [] → m.service.tally.activeClients = m.service.calculator.limiter.size

variable {calculator : Calculator} {events : List Event} {e : Event} {m m' : Mailbox}

theorem Channel.start (room : Nat) (calculator : Calculator) :
    Channel calculator [] (Mailbox.start room calculator) :=
  ⟨rfl, rfl, rfl, rfl, fun h => absurd rfl h⟩

/-- Steps that neither fill nor empty the mailbox nor reach the calculator do not show in it. -/
theorem Channel.frame (h : Channel calculator events m) (hsent : sent [e] = []) (hhandled : handled [e] = [])
    (hservice : m'.service = m.service) (hletters : m'.inHand ++ m'.letters = m.inHand ++ m.letters) :
    Channel calculator (events ++ [e]) m' := by
  have hs : sent (events ++ [e]) = sent events := by rw [sent_append, hsent, List.append_nil]
  have hh : handled (events ++ [e]) = handled events := by rw [handled_append, hhandled, List.append_nil]
  refine ⟨?_, ?_, ?_, ?_, ?_⟩
  · rw [hservice]
    exact h.isOpen
  · rw [hs, hh, List.append_assoc, hletters, ← List.append_assoc]
    exact h.sent_eq
  · rw [hh]
    exact h.transcript_eq
  · rw [hh, hservice]
    exact h.calculator_eq
  · rw [hh, hservice]
    exact h.gauge

/-- **Every step of an open service keeps the order**: a letter goes to the end of the mailbox, the first letter goes to
the service, and the letter in hand to those handled. -/
theorem Channel.step (h : Channel calculator events m) (hstep : Step m e m') (hopen : e ≠ .close) :
    Channel calculator (events ++ [e]) m' := by
  cases hstep with
  | begin visit => exact h.frame rfl rfl rfl rfl
  | receive replied => exact h.frame rfl rfl rfl rfl
  | abandon stands notOver => exact h.frame rfl rfl rfl rfl
  | refuse closed sending => exact h.frame rfl rfl rfl rfl
  | lose closed waiting => exact h.frame rfl rfl rfl rfl
  | close idle => exact absurd rfl hopen
  | take idle letters =>
    refine h.frame rfl rfl rfl ?_
    unfold inHand
    rw [idle, letters]
    rfl
  | reply replying =>
    have hinHand : m.inHand = [] := by
      unfold inHand
      rw [replying]
    refine h.frame rfl rfl rfl ?_
    rw [hinHand]
    rfl
  | @send i visit isOpen room call =>
    have hh : handled (events ++ [.send ⟨i, visit⟩]) = handled events := filterMap_concat_of_eq_none rfl events
    refine ⟨h.isOpen, ?_, ?_, ?_, ?_⟩
    · rw [hh, sent_append, h.sent_eq, List.append_assoc]
      rfl
    · rw [hh]
      exact h.transcript_eq
    · rw [hh]
      exact h.calculator_eq
    · rw [hh]
      exact h.gauge
  | @handle letter response service handling ask =>
    rw [Service.ask_of_isOpen h.isOpen] at ask
    obtain ⟨hresponse, rfl⟩ := Prod.mk.inj ask
    cases hresponse
    refine ⟨h.isOpen, ?_, ?_, ?_, fun _ => rfl⟩
    · have hinHand : m.inHand = [letter] := by
        unfold inHand
        rw [handling]
      rw [sent_append, h.sent_eq, handled_append, hinHand, List.map_append]
      simp only [sent, handled, inHand, List.filterMap_cons, List.filterMap_nil, List.map_cons, List.map_nil,
        List.append_nil]
    · rw [handled_append, List.map_append, List.map_append, h.transcript_eq, h.calculator_eq]
      exact (transcript_concat ..).symm
    · rw [handled_append, List.map_append, h.calculator_eq]
      exact (after_concat ..).symm

end Mailbox
end InterestDesk
