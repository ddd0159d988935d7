import InterestDesk.Proofs.Admission.Memory
import Mathlib.Data.List.Basic
/-!
# Effect — what a check changes, and what it leaves as it was

The roster is read as a map: a client has a list of times, or is not tracked.  A check drops the clients in whose lists
a due sweep finds no live time (`dropped`) and leaves every other list as it was, but for the client's own: that one is
pruned, and gains the time of the check if it was admitted (`check_changes`).  Both prunes have one rule, so a client
dropped by the sweep of its own check comes back with the list it would have had without the sweep.
-/
namespace InterestDesk
namespace Roster

theorem lookup_cons (entry : String × List Int) (rest : Roster) (client : String) :
    List.lookup client (entry :: rest) = if client = entry.1 then some entry.2 else rest.lookup client := by
  rw [List.lookup_cons]
  by_cases h : client = entry.1
  · simp [h]
  · simp [h, beq_false_of_ne h]

theorem lookup_put (client other : String) (new : List Int) (roster : Roster) :
    (put client new roster).lookup other = if other = client then some new else roster.lookup other := by
  induction roster with
  | nil => simp [put, lookup_cons]
  | cons entry rest ih =>
    unfold put
    by_cases he : entry.1 = client
    · by_cases h : other = client <;> simp [lookup_cons, he, h]
    · by_cases h : other = entry.1 <;> simp [lookup_cons, he, h, ih]

theorem length_put (client : String) (new : List Int) (roster : Roster) :
    (put client new roster).length = roster.length + if roster.lookup client = none then 1 else 0 := by
  induction roster with
  | nil => rfl
  | cons entry rest ih =>
    have hl := lookup_cons entry rest client
    by_cases he : entry.1 = client
    · rw [if_pos he.symm] at hl
      simp [put, he, hl]
    · rw [if_neg (Ne.symm he)] at hl
      rw [put, if_neg he, hl, List.length_cons, ih, List.length_cons, Nat.add_right_comm]

theorem lookup_eq_some_iff {roster : Roster} (h : roster.Distinct) {client : String} {times : List Int} :
    roster.lookup client = some times ↔ (client, times) ∈ roster := by
  induction roster with
  | nil => simp
  | cons entry rest ih =>
    unfold Distinct at h
    rw [List.map_cons, List.nodup_cons] at h
    rw [lookup_cons, List.mem_cons, Prod.ext_iff]
    by_cases hc : client = entry.1
    · have hrest : (client, times) ∉ rest := fun hm => h.1 (hc ▸ List.mem_map_of_mem hm)
      simp only [hc, if_true, Option.some.injEq, true_and] at hrest ⊢
      simp [hrest, eq_comm]
    · simp [hc, ih h.2]

/-- The clients whose lists do not satisfy `keep`. -/
def without (keep : List Int → Bool) (roster : Roster) : List String :=
  (roster.filter fun entry => !keep entry.2).map Prod.fst

theorem mem_without {roster : Roster} (h : roster.Distinct) (keep : List Int → Bool) {client : String} :
    client ∈ roster.without keep ↔ ∃ times, roster.lookup client = some times ∧ keep times = false := by
  simp [without, lookup_eq_some_iff h]

theorem lookup_filter {roster : Roster} (h : roster.Distinct) (keep : List Int → Bool) (client : String) :
    List.lookup client (roster.filter fun entry => keep entry.2) =
      if client ∈ roster.without keep then none else roster.lookup client := by
  refine Option.ext fun times => ?_
  rw [lookup_eq_some_iff (h.filter _), List.mem_filter, ← lookup_eq_some_iff h]
  simp only [mem_without h]
  cases hl : roster.lookup client with
  | none => simp
  | some held =>
    cases hk : keep held with
    | true =>
      simp [hk]
      rintro rfl
      exact hk
    | false =>
      simp [hk]
      rintro rfl
      exact hk

theorem length_filter_add_length_without (keep : List Int → Bool) (roster : Roster) :
    (roster.filter fun entry => keep entry.2).length + (roster.without keep).length = roster.length := by
  rw [without, List.length_map]
  exact (List.length_eq_length_filter_add fun entry : String × List Int => keep entry.2).symm

end Roster

/-- Whether a time is ahead of `now` or less than a window old. -/
def Allowance.IsRecent (a : Allowance) (now t : Int) : Prop :=
  now < t ∨ now - t < a.window

instance (a : Allowance) (now t : Int) : Decidable (a.IsRecent now t) :=
  inferInstanceAs (Decidable (now < t ∨ now - t < a.window))

theorem Allowance.isLive_iff_isRecent (a : Allowance) (now t : Int) :
    a.isLive now t = true ↔ a.IsRecent now t := by
  rw [isLive_iff, IsRecent]
  omega

namespace Limiter

/-- The clients that a check at `now` drops: if a sweep is due, those with no live time. -/
def dropped (l : Limiter) (now : Int) : List String :=
  if l.isSweepDue now then l.clients.without fun times => times.any (l.allowance.isLive now) else []

theorem isSweepDue_iff (l : Limiter) (now : Int) :
    l.isSweepDue now = true ↔ ∃ due, l.nextSweep = some due ∧ due ≤ now := by
  simp [isSweepDue, Option.any_eq_true]

theorem mem_dropped {l : Limiter} (h : l.clients.Distinct) {now : Int} {client : String} :
    client ∈ l.dropped now ↔ l.isSweepDue now = true ∧
      ∃ times, l.clients.lookup client = some times ∧ ∀ t ∈ times, ¬ l.allowance.IsRecent now t := by
  unfold dropped
  split
  · rename_i hdue
    simp only [hdue, true_and, Roster.mem_without h, List.any_eq_false, Allowance.isLive_iff_isRecent]
  · rename_i hdue
    simp [hdue]

theorem nodup_dropped {l : Limiter} (h : l.clients.Distinct) (now : Int) : (l.dropped now).Nodup := by
  unfold dropped
  split
  · exact h.filter _
  · exact List.nodup_nil

theorem lookup_housekeep {l : Limiter} (h : l.clients.Distinct) (now : Int) (client : String) :
    (l.housekeep now).clients.lookup client = if client ∈ l.dropped now then none else l.clients.lookup client := by
  unfold housekeep dropped
  split
  · exact Roster.lookup_filter h (fun times => times.any (l.allowance.isLive now)) client
  · simp

theorem size_housekeep (l : Limiter) (now : Int) : (l.housekeep now).size + (l.dropped now).length = l.size := by
  unfold housekeep dropped
  split
  · exact Roster.length_filter_add_length_without (fun times => times.any (l.allowance.isLive now)) l.clients
  · rfl

theorem evicted_housekeep (l : Limiter) (now : Int) :
    (l.housekeep now).evicted = if l.isSweepDue now then (l.dropped now).length else l.evicted := by
  have hsize := l.size_housekeep now
  unfold housekeep at hsize ⊢
  split
  · rename_i hdue
    rw [if_pos hdue] at hsize
    show l.size - (l.sweep now).size = _
    omega
  · rfl

theorem nextSweep_check (l : Limiter) (client : String) (now : Int) :
    (l.check client now).2.nextSweep =
      if l.isSweepDue now = true ∨ l.nextSweep = none then Clock.after? now l.sweepInterval else l.nextSweep := by
  show (l.housekeep now).nextSweep = _
  unfold housekeep
  by_cases hdue : l.isSweepDue now = true
  · simp [hdue, sweep]
  · cases hnext : l.nextSweep <;> simp [hdue]

theorem lookup_check_of_ne {l : Limiter} (h : l.clients.Distinct) {client other : String} (hne : other ≠ client)
    (now : Int) :
    (l.check client now).2.clients.lookup other =
      if other ∈ l.dropped now then none else l.clients.lookup other := by
  rw [← lookup_housekeep h]
  exact (Roster.lookup_put client other _ _).trans (if_neg hne)

theorem lookup_check_self {l : Limiter} (h : l.clients.Distinct) (client : String) (now : Int) :
    (l.check client now).2.clients.lookup client =
      some ((l.clients.times client).filter (l.allowance.isLive now) ++
        if (l.check client now).1.allowed then [now] else []) := by
  rw [check_fst h, ← Allowance.judge_times, ← judge_housekeep h]
  exact (Roster.lookup_put client client _ _).trans (if_pos rfl)

theorem size_check {l : Limiter} (h : l.clients.Distinct) (client : String) (now : Int) :
    (l.check client now).2.size + (l.dropped now).length =
      l.size + if client ∈ l.dropped now ∨ l.clients.lookup client = none then 1 else 0 := by
  have hput : (l.check client now).2.size = _ := Roster.length_put client _ (l.housekeep now).clients
  have hnone : (l.housekeep now).clients.lookup client = none ↔
      client ∈ l.dropped now ∨ l.clients.lookup client = none := by
    rw [lookup_housekeep h, ite_eq_left_iff, or_iff_not_imp_left]
  rw [hput, Nat.add_right_comm, ← l.size_housekeep now]
  simp only [hnone]
  rfl

/-- **A check touches the list of its own client and drops the clients a due sweep finds idle**, which are those with no
time ahead of the clock or less than a window old; their number is noted.  No other client's list changes.  The client
of the check is tracked afterwards, also if the sweep dropped it: with those of its times that still count, and the
time of the check behind them if it was admitted. -/
theorem check_changes (plan : LimiterPlan) (past : List Arrival) (client : String) (now : Int) :
    let l := (ofPlan plan).after past
    let decision := (l.check client now).1
    let next := (l.check client now).2
    (l.isSweepDue now = true ↔ ∃ due, l.nextSweep = some due ∧ due ≤ now) ∧
      (∀ other, other ∈ l.dropped now ↔ l.isSweepDue now = true ∧
        ∃ times, l.clients.lookup other = some times ∧ ∀ t ∈ times, ¬ plan.allowance.IsRecent now t) ∧
      (l.dropped now).Nodup ∧
      next.evicted = (if l.isSweepDue now then (l.dropped now).length else l.evicted) ∧
      next.nextSweep = (if l.isSweepDue now = true ∨ l.nextSweep = none then Clock.after? now plan.sweepInterval
        else l.nextSweep) ∧
      (∀ other, other ≠ client →
        next.clients.lookup other = if other ∈ l.dropped now then none else l.clients.lookup other) ∧
      next.clients.lookup client =
        some (((l.clients.lookup client).getD []).filter (fun t => plan.allowance.IsRecent now t) ++
          if decision.allowed then [now] else []) ∧
      next.size + (l.dropped now).length =
        l.size + if client ∈ l.dropped now ∨ l.clients.lookup client = none then 1 else 0 := by
  intro l decision next
  have h : l.clients.Distinct := ((tidy_ofPlan plan).after past).distinct
  have ha : l.allowance = plan.allowance := allowance_after (ofPlan plan) past
  have hi : l.sweepInterval = plan.sweepInterval := sweepInterval_after (ofPlan plan) past
  have hlive : plan.allowance.isLive now = fun t => decide (plan.allowance.IsRecent now t) := by
    funext t
    rw [Bool.eq_iff_iff, Allowance.isLive_iff_isRecent, decide_eq_true_iff]
  refine ⟨l.isSweepDue_iff now, fun other => ?_, nodup_dropped h now, l.evicted_housekeep now, ?_,
    fun other hne => lookup_check_of_ne h hne now, ?_, size_check h client now⟩
  · rw [mem_dropped h, ha]
  · rw [← hi]
    exact l.nextSweep_check client now
  · rw [← hlive, ← ha]
    exact lookup_check_self h client now

/-- The sweep at 12 drops `a`, and the check it belongs to tracks `a` again. -/
example :
    let l := (ofPlan ⟨⟨2, 10⟩, 0, 5⟩).after [⟨"a", 0⟩, ⟨"b", 4⟩]
    l.dropped 12 = ["a"] ∧ (l.check "a" 12).2.clients = [("b", [4]), ("a", [12])] := by
  decide

end Limiter
end InterestDesk
