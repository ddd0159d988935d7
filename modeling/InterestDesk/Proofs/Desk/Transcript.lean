import InterestDesk.Desk.Service
import InterestDesk.Proofs.Admission.Run
/-!
# Transcript — visits to a calculator, one after the other

`Calculator.transcript` is the plain sequential run: each visit with the response to it.  Whether a visit is limited is
what the bare limiter decides on its client and time (`transcript_limited`); the submitted fields have no say in it.
-/
namespace InterestDesk

def Visit.arrival (v : Visit) : Arrival :=
  ⟨v.client, v.now⟩

namespace Calculator

def after (c : Calculator) (visits : List Visit) : Calculator :=
  visits.foldl (fun c v => (c.handle v.client v.fields v.now).2) c

/-- Visits in this order, each with the response to it. -/
def transcript : Calculator → List Visit → List (Visit × Response)
  | _, [] => []
  | c, v :: rest => (v, (c.handle v.client v.fields v.now).1) :: transcript (c.handle v.client v.fields v.now).2 rest

theorem after_concat (c : Calculator) (visits : List Visit) (v : Visit) :
    c.after (visits ++ [v]) = ((c.after visits).handle v.client v.fields v.now).2 :=
  List.foldl_append

/-- The limiter behind a run of visits is the bare limiter after their clients and times. -/
theorem limiter_after : ∀ (c : Calculator) (visits : List Visit),
    (c.after visits).limiter = c.limiter.after (visits.map Visit.arrival)
  | _, [] => rfl
  | c, v :: rest => limiter_after (c.handle v.client v.fields v.now).2 rest

theorem transcript_concat : ∀ (c : Calculator) (visits : List Visit) (v : Visit),
    c.transcript (visits ++ [v]) =
      c.transcript visits ++ [(v, ((c.after visits).handle v.client v.fields v.now).1)]
  | _, [], _ => rfl
  | c, w :: visits, v => by
    rw [List.cons_append, transcript, transcript, transcript_concat _ visits v]
    rfl

/-- **A response says that it was limited exactly when the limiter turned the visit away.** -/
theorem rateLimited_handle (c : Calculator) (v : Visit) :
    (c.handle v.client v.fields v.now).1.rateLimited = !(c.limiter.check v.client v.now).1.allowed := by
  unfold handle
  dsimp only
  cases h : (c.limiter.check v.client v.now).1.allowed with
  | true => rfl
  | false => rfl

/-- **The limited visits are those that the bare limiter turns away.** -/
theorem transcript_limited : ∀ (c : Calculator) (visits : List Visit),
    (c.transcript visits).map (fun entry => (entry.1.arrival, !entry.2.rateLimited)) =
      (c.limiter.log (visits.map Visit.arrival)).map fun entry => (entry.1, entry.2.allowed)
  | _, [] => rfl
  | c, v :: rest => by
    rw [transcript, List.map_cons, transcript_limited _ rest, rateLimited_handle, Bool.not_not]
    rfl

theorem length_admitted_transcript (c : Calculator) (visits : List Visit) (client : String) :
    ((c.transcript visits).filter fun entry => entry.1.client == client && !entry.2.rateLimited).length =
      ((c.limiter.log (visits.map Visit.arrival)).admissions client).length := by
  have h := congrArg (List.filter fun entry : Arrival × Bool => entry.1.client == client && entry.2)
    (c.transcript_limited visits)
  rw [List.filter_map, List.filter_map] at h
  have hlength := congrArg List.length h
  rw [List.length_map, List.length_map] at hlength
  unfold Log.admissions Log.ofClient
  rw [List.length_map, List.filter_filter]
  refine hlength.trans (congrArg List.length (List.filter_congr fun entry _ => ?_))
  exact Bool.and_comm _ _

end Calculator

/-- Asking an open service is asking its calculator, and the gauge then shows what the calculator tracks. -/
theorem Service.ask_of_isOpen {s : Service} (h : s.isOpen = true) (v : Visit) :
    s.ask v = (.ok (s.calculator.handle v.client v.fields v.now).1,
      { s with
        calculator := (s.calculator.handle v.client v.fields v.now).2
        tally := s.tally.noteActiveClients (s.calculator.handle v.client v.fields v.now).2.limiter.size }) := by
  unfold ask
  rw [if_pos h]

theorem Service.ask_of_closed {s : Service} (h : s.isOpen = false) (v : Visit) : s.ask v = (.error .closed, s) := by
  unfold ask
  rw [h]
  rfl

end InterestDesk
