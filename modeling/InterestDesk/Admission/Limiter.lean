import InterestDesk.Admission.Window
/-!
# Limiter — sliding windows for many clients

The limiter keeps one list of times per tracked client.  A check first sweeps if a sweep is due, dropping the clients
with no live time, and then decides by the client's own list alone.
-/
namespace InterestDesk

structure LimiterPlan where
  allowance : Allowance
  /-- how many clients to expect; it changes no decision -/
  capacity : Nat
  sweepInterval : Nat

namespace LimiterPlan

def standard : LimiterPlan :=
  ⟨Allowance.standard, 1000, Clock.seconds 60⟩

end LimiterPlan

/-- The tracked clients with the times of their admitted requests; each client stands once. -/
abbrev Roster := List (String × List Int)

namespace Roster

/-- The times of a client; none for one that is not tracked. -/
def times (roster : Roster) (client : String) : List Int :=
  (roster.lookup client).getD []

/-- Replaces the times of a client, tracking it if it was not. -/
def put (client : String) (times : List Int) : Roster → Roster
  | [] => [(client, times)]
  | entry :: rest =>
    if entry.1 = client then (client, times) :: rest else entry :: put client times rest

theorem times_put_self (client : String) (new : List Int) :
    ∀ roster : Roster, (put client new roster).times client = new
  | [] => by simp [put, times]
  | entry :: rest => by
    unfold put
    split
    · simp [times]
    · rename_i h
      have hb : (client == entry.1) = false := beq_false_of_ne (Ne.symm h)
      have ih := times_put_self client new rest
      unfold times at ih ⊢
      rw [List.lookup_cons, hb]
      exact ih

theorem times_put_of_ne {client other : String} (h : other ≠ client) (new : List Int) :
    ∀ roster : Roster, (put client new roster).times other = roster.times other
  | [] => by
    unfold put times
    rw [List.lookup_cons, beq_false_of_ne h]
  | entry :: rest => by
    have hb : (other == client) = false := beq_false_of_ne h
    unfold put
    split
    · rename_i he
      unfold times
      rw [List.lookup_cons, List.lookup_cons, he, hb]
    · have ih := times_put_of_ne h new rest
      unfold times at ih ⊢
      rw [List.lookup_cons, List.lookup_cons]
      split
      · rfl
      · exact ih

end Roster

structure Limiter where
  allowance : Allowance
  sweepInterval : Nat
  clients : Roster
  /-- the next sweep, once the first check has set it -/
  nextSweep : Option Int
  /-- clients dropped by the latest sweep -/
  evicted : Nat

namespace Limiter

def ofPlan (plan : LimiterPlan) : Limiter :=
  ⟨plan.allowance, plan.sweepInterval, [], none, 0⟩

def size (l : Limiter) : Nat :=
  l.clients.length

def isSweepDue (l : Limiter) (now : Int) : Bool :=
  l.nextSweep.any (· ≤ now)

/-- Drops the clients with no live time and sets the next sweep. -/
def sweep (l : Limiter) (now : Int) : Limiter :=
  let kept := l.clients.filter fun entry => entry.2.any (l.allowance.isLive now)
  { l with
    clients := kept
    evicted := l.clients.length - kept.length
    nextSweep := Clock.after? now l.sweepInterval }

/-- Sweeps if a sweep is due; the check before the first sweep only sets its time. -/
def housekeep (l : Limiter) (now : Int) : Limiter :=
  if l.isSweepDue now then l.sweep now
  else { l with nextSweep := l.nextSweep <|> Clock.after? now l.sweepInterval }

/-- Decides on a request of `client` at `now`, and gives the limiter after it. -/
def check (l : Limiter) (client : String) (now : Int) : Decision × Limiter :=
  let swept := l.housekeep now
  let (decision, times) := swept.allowance.judge now (swept.clients.times client)
  (decision, { swept with clients := swept.clients.put client times })

end Limiter
end InterestDesk
