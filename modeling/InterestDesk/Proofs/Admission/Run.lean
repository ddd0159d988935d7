import InterestDesk.Proofs.Admission.Check
/-!
# Run — checks one after the other

A run of checks gives a limiter (`after`) and a log of decisions (`log`).  The law of a run is `filter_times_after`: at
any instant not before its checks, the live times of a client are those of its old times and of its admissions in the
log.  Pruning, sweeps and the other clients do not show in it, and the clock may go backwards during the run.
-/
namespace InterestDesk

/-- One check as it comes in: the client, and the time its clock shows. -/
structure Arrival where
  client : String
  now : Int
  deriving DecidableEq

/-- Checks with the decisions on them, in order. -/
abbrev Log := List (Arrival × Decision)

namespace Log

def ofClient (log : Log) (client : String) : Log :=
  log.filter fun entry => entry.1.client == client

/-- The times of a client's admitted checks. -/
def admissions (log : Log) (client : String) : List Int :=
  ((log.ofClient client).filter fun entry => entry.2.allowed).map fun entry => entry.1.now

theorem ofClient_append (log rest : Log) (client : String) :
    Log.ofClient (log ++ rest) client = log.ofClient client ++ rest.ofClient client :=
  List.filter_append ..

theorem admissions_append (log rest : Log) (client : String) :
    Log.admissions (log ++ rest) client = log.admissions client ++ rest.admissions client := by
  unfold admissions
  rw [ofClient_append, List.filter_append, List.map_append]

theorem admissions_singleton_self (x : Arrival) (d : Decision) :
    Log.admissions [(x, d)] x.client = if d.allowed then [x.now] else [] := by
  cases hd : d.allowed <;> simp [admissions, ofClient, hd]

theorem admissions_singleton_of_ne {x : Arrival} {client : String} (h : client ≠ x.client) (d : Decision) :
    Log.admissions [(x, d)] client = [] := by
  simp [admissions, ofClient, Ne.symm h]

theorem mem_admissions {log : Log} {client : String} {t : Int} :
    t ∈ log.admissions client ↔ ∃ entry ∈ log, entry.1.client = client ∧ entry.2.allowed = true ∧ entry.1.now = t := by
  simp [admissions, ofClient, and_assoc, and_left_comm]

end Log

namespace Limiter

/-- The limiter after checks in this order. -/
def after (l : Limiter) (arrivals : List Arrival) : Limiter :=
  arrivals.foldl (fun l x => (l.check x.client x.now).2) l

/-- The decisions on checks made in this order. -/
def log : Limiter → List Arrival → Log
  | _, [] => []
  | l, x :: rest => (x, (l.check x.client x.now).1) :: log (l.check x.client x.now).2 rest

theorem after_cons (l : Limiter) (x : Arrival) (rest : List Arrival) :
    l.after (x :: rest) = (l.check x.client x.now).2.after rest := rfl

theorem after_concat (l : Limiter) (arrivals : List Arrival) (x : Arrival) :
    l.after (arrivals ++ [x]) = ((l.after arrivals).check x.client x.now).2 :=
  List.foldl_append

theorem log_append (l : Limiter) : ∀ arrivals rest : List Arrival,
    l.log (arrivals ++ rest) = l.log arrivals ++ (l.after arrivals).log rest
  | [], _ => rfl
  | x :: arrivals, rest => by
    rw [List.cons_append, log, log, log_append _ arrivals rest, after_cons, List.cons_append]

theorem log_concat (l : Limiter) (arrivals : List Arrival) (x : Arrival) :
    l.log (arrivals ++ [x]) = l.log arrivals ++ [(x, ((l.after arrivals).check x.client x.now).1)] :=
  l.log_append arrivals [x]

theorem map_fst_log : ∀ (l : Limiter) (arrivals : List Arrival), (l.log arrivals).map Prod.fst = arrivals
  | _, [] => rfl
  | l, x :: rest => by rw [log, List.map_cons, map_fst_log]

theorem fst_mem_of_mem_log {l : Limiter} {arrivals : List Arrival} {entry : Arrival × Decision}
    (h : entry ∈ l.log arrivals) : entry.1 ∈ arrivals := by
  rw [← map_fst_log l arrivals]
  exact List.mem_map_of_mem h

theorem Tidy.after : ∀ {l : Limiter}, l.Tidy → ∀ arrivals : List Arrival, (l.after arrivals).Tidy
  | _, h, [] => h
  | _, h, x :: rest => (h.check x.client x.now).after rest

@[simp] theorem allowance_after : ∀ (l : Limiter) (arrivals : List Arrival), (l.after arrivals).allowance = l.allowance
  | _, [] => rfl
  | l, x :: rest => by rw [after_cons, allowance_after, allowance_check]

/-- **One check, seen from a later instant**: a client's live times gain its admission and lose nothing. -/
theorem filter_times_check {l : Limiter} (h : l.clients.Distinct) (x : Arrival) {later : Int} (hle : x.now ≤ later)
    (client : String) :
    ((l.check x.client x.now).2.clients.times client).filter (l.allowance.isLive later) =
      (l.clients.times client ++ Log.admissions [(x, (l.check x.client x.now).1)] client).filter
        (l.allowance.isLive later) := by
  by_cases hc : client = x.client
  · subst hc
    rw [times_check_self h, Allowance.judge_times, ← check_fst h, Log.admissions_singleton_self, List.filter_append,
      List.filter_append, l.allowance.filter_live_of_le hle]
  · rw [times_check_of_ne h hc, Log.admissions_singleton_of_ne hc, List.append_nil]
    split
    · rename_i hs
      rw [List.filter_nil, eq_comm, List.filter_eq_nil_iff]
      intro t ht hlive
      exact List.any_eq_false.1 hs.2 t ht (l.allowance.isLive_of_le hle hlive)
    · rfl

/-- **A run of checks, seen from an instant not before any of them**: a client's live times are those of its old times
and of its admissions, in this order. -/
theorem filter_times_after {later : Int} (client : String) : ∀ {l : Limiter}, l.Tidy → ∀ {arrivals : List Arrival},
    (∀ x ∈ arrivals, x.now ≤ later) →
      ((l.after arrivals).clients.times client).filter (l.allowance.isLive later) =
        (l.clients.times client ++ (l.log arrivals).admissions client).filter (l.allowance.isLive later)
  | l, _, [], _ => by
    rw [show (l.log []).admissions client = [] from rfl, List.append_nil]
    rfl
  | l, h, x :: rest, hle => by
    have hx := filter_times_check h.distinct x (hle x List.mem_cons_self) client
    have ih := filter_times_after client (h.check x.client x.now) (fun y hy => hle y (List.mem_cons_of_mem x hy))
    rw [allowance_check] at ih
    rw [after_cons, ih, List.filter_append, hx, ← List.filter_append, List.append_assoc, ← Log.admissions_append]
    rfl

end Limiter
end InterestDesk
