import InterestDesk.Admission.Limiter
/-!
# Check — what one check does to the remembered times

A sweep never shows in a decision: it drops only clients with no live time, and a decision reads the live times alone.
So a check decides by what the client had before the sweep (`check_fst`), leaves it the times `Allowance.judge` gives
(`times_check_self`), and leaves any other client its times unless a due sweep found none of them live
(`times_check_of_ne`).  `Tidy` is what every check keeps: each client stands once, with at most `limit` times.
-/
namespace InterestDesk
namespace Allowance

theorem isLive_iff (a : Allowance) (now t : Int) : a.isLive now t = true ↔ now < t + a.window := by
  unfold isLive
  exact decide_eq_true_iff

theorem isLive_of_le (a : Allowance) {now later t : Int} (h : now ≤ later) (ht : a.isLive later t = true) :
    a.isLive now t = true := by
  rw [isLive_iff] at ht ⊢
  omega

/-- **Pruning early loses nothing that counts later.** -/
theorem filter_live_of_le (a : Allowance) {now later : Int} (h : now ≤ later) (times : List Int) :
    (times.filter (a.isLive now)).filter (a.isLive later) = times.filter (a.isLive later) := by
  rw [List.filter_filter]
  apply List.filter_congr
  intro t _
  cases ht : a.isLive later t with
  | true => simp [a.isLive_of_le h ht]
  | false => rfl

theorem judge_congr (a : Allowance) {now : Int} {times others : List Int}
    (h : times.filter (a.isLive now) = others.filter (a.isLive now)) : a.judge now times = a.judge now others := by
  unfold judge
  rw [h]

/-- **The wait is until the oldest time leaves the window**, or a whole window when the clock cannot show that. -/
theorem wait_of_min? (a : Allowance) {now oldest : Int} {times : List Int} (hmin : times.min? = some oldest)
    (hlive : a.isLive now oldest = true) :
    a.wait now times =
      if oldest + a.window ≤ Clock.lastInstant then (oldest + a.window - now).toNat else a.window := by
  rw [isLive_iff] at hlive
  unfold wait Clock.after?
  rw [hmin, Option.bind_some]
  by_cases hs : oldest + a.window ≤ Clock.lastInstant
  · rw [if_pos hs, if_pos hs]
    exact if_pos (Int.le_of_lt hlive)
  · rw [if_neg hs, if_neg hs]

theorem wait_of_min?_eq_none (a : Allowance) {now : Int} {times : List Int} (hmin : times.min? = none) :
    a.wait now times = a.window := by
  unfold wait
  rw [hmin, Option.bind_none]

end Allowance

namespace Roster

/-- Each client stands once. -/
def Distinct (roster : Roster) : Prop :=
  (roster.map Prod.fst).Nodup

theorem mem_keys_put (client : String) (new : List Int) :
    ∀ (roster : Roster) (other : String),
      other ∈ (put client new roster).map Prod.fst ↔ other = client ∨ other ∈ roster.map Prod.fst
  | [], other => by simp [put]
  | entry :: rest, other => by
    unfold put
    split
    · rename_i he
      simp [he]
    · rw [List.map_cons, List.mem_cons, mem_keys_put client new rest other, List.map_cons, List.mem_cons]
      exact or_left_comm

theorem Distinct.put {client : String} {new : List Int} :
    ∀ {roster : Roster}, roster.Distinct → (Roster.put client new roster).Distinct
  | [], _ => by simp [Distinct, Roster.put]
  | entry :: rest, h => by
    unfold Distinct at h
    rw [List.map_cons, List.nodup_cons] at h
    unfold Roster.put
    split
    · rename_i he
      unfold Distinct
      rw [List.map_cons, List.nodup_cons, ← he]
      exact h
    · rename_i he
      unfold Distinct
      rw [List.map_cons, List.nodup_cons]
      refine ⟨fun hm => ?_, Distinct.put h.2⟩
      rcases (mem_keys_put client new rest entry.1).1 hm with hc | hc
      · exact he hc
      · exact h.1 hc

theorem Distinct.filter {roster : Roster} (h : roster.Distinct) (keep : String × List Int → Bool) :
    Distinct (roster.filter keep) :=
  List.Nodup.sublist (List.filter_sublist.map Prod.fst) h

theorem times_cons_self (client : String) (times : List Int) (rest : Roster) :
    Roster.times ((client, times) :: rest) client = times := by
  simp [Roster.times]

theorem times_cons_of_ne {client other : String} (h : other ≠ client) (times : List Int) (rest : Roster) :
    Roster.times ((client, times) :: rest) other = Roster.times rest other := by
  unfold Roster.times
  rw [List.lookup_cons, beq_false_of_ne h]

theorem times_of_not_mem {client : String} :
    ∀ {roster : Roster}, client ∉ roster.map Prod.fst → roster.times client = []
  | [], _ => rfl
  | (other, times) :: rest, h => by
    rw [List.map_cons, List.mem_cons, not_or] at h
    rw [times_cons_of_ne h.1, times_of_not_mem h.2]

/-- **Dropping clients by their times leaves each one all of its times or none.** -/
theorem times_filter (keep : List Int → Bool) (client : String) :
    ∀ {roster : Roster}, roster.Distinct →
      Roster.times (roster.filter fun entry => keep entry.2) client =
        if keep (roster.times client) then roster.times client else []
  | [], _ => (ite_self []).symm
  | (other, times) :: rest, h => by
    unfold Distinct at h
    rw [List.map_cons, List.nodup_cons] at h
    have ih := times_filter keep client h.2
    by_cases hc : client = other
    · subst hc
      have hgone : client ∉ (rest.filter fun entry => keep entry.2).map Prod.fst := fun hm =>
        h.1 ((List.filter_sublist.map Prod.fst).mem hm)
      rw [times_cons_self, List.filter_cons]
      split
      · exact times_cons_self client times _
      · exact times_of_not_mem hgone
    · rw [times_cons_of_ne hc, ← ih, List.filter_cons]
      split
      · exact times_cons_of_ne hc times _
      · rfl

end Roster

namespace Limiter

/-- What every check keeps: each client stands once, with at most as many times as it may make requests. -/
structure Tidy (l : Limiter) : Prop where
  distinct : l.clients.Distinct
  length_le : ∀ client, (l.clients.times client).length ≤ l.allowance.limit

@[simp] theorem allowance_housekeep (l : Limiter) (now : Int) : (l.housekeep now).allowance = l.allowance := by
  unfold housekeep
  split
  · rfl
  · rfl

@[simp] theorem allowance_check (l : Limiter) (client : String) (now : Int) :
    (l.check client now).2.allowance = l.allowance :=
  allowance_housekeep l now

theorem distinct_housekeep {l : Limiter} (h : l.clients.Distinct) (now : Int) :
    (l.housekeep now).clients.Distinct := by
  unfold housekeep
  split
  · exact h.filter _
  · exact h

/-- **Housekeeping forgets the times of a client only in a due sweep and only if none of them is live.** -/
theorem times_housekeep {l : Limiter} (h : l.clients.Distinct) (now : Int) (client : String) :
    (l.housekeep now).clients.times client =
      if l.isSweepDue now = true ∧ (l.clients.times client).any (l.allowance.isLive now) = false then []
      else l.clients.times client := by
  unfold housekeep
  split
  · rename_i hdue
    have hs : (l.sweep now).clients.times client = _ :=
      Roster.times_filter (fun times => times.any (l.allowance.isLive now)) client h
    rw [hs]
    cases (l.clients.times client).any (l.allowance.isLive now) <;> simp [hdue]
  · rename_i hdue
    simp [hdue]

theorem filter_times_housekeep {l : Limiter} (h : l.clients.Distinct) (now : Int) (client : String) :
    ((l.housekeep now).clients.times client).filter (l.allowance.isLive now) =
      (l.clients.times client).filter (l.allowance.isLive now) := by
  rw [times_housekeep h]
  split
  · rename_i hs
    rw [List.filter_nil, eq_comm, List.filter_eq_nil_iff]
    exact fun t ht => by simpa using List.any_eq_false.1 hs.2 t ht
  · rfl

theorem judge_housekeep {l : Limiter} (h : l.clients.Distinct) (now : Int) (client : String) :
    (l.housekeep now).allowance.judge now ((l.housekeep now).clients.times client) =
      l.allowance.judge now (l.clients.times client) := by
  rw [allowance_housekeep]
  exact l.allowance.judge_congr (filter_times_housekeep h now client)

/-- **A check decides by the client's own times as they were before any sweep.** -/
theorem check_fst {l : Limiter} (h : l.clients.Distinct) (client : String) (now : Int) :
    (l.check client now).1 = (l.allowance.judge now (l.clients.times client)).1 :=
  congrArg Prod.fst (judge_housekeep h now client)

/-- **A check leaves its client the live times, and its own time if it was admitted.** -/
theorem times_check_self {l : Limiter} (h : l.clients.Distinct) (client : String) (now : Int) :
    (l.check client now).2.clients.times client = (l.allowance.judge now (l.clients.times client)).2 :=
  (Roster.times_put_self client _ _).trans (congrArg Prod.snd (judge_housekeep h now client))

/-- **A check leaves another client its times, unless a due sweep found none of them live.** -/
theorem times_check_of_ne {l : Limiter} (h : l.clients.Distinct) {client other : String} (hne : other ≠ client)
    (now : Int) :
    (l.check client now).2.clients.times other =
      if l.isSweepDue now = true ∧ (l.clients.times other).any (l.allowance.isLive now) = false then []
      else l.clients.times other :=
  (Roster.times_put_of_ne hne _ _).trans (times_housekeep h now other)

theorem tidy_ofPlan (plan : LimiterPlan) : (ofPlan plan).Tidy :=
  ⟨List.nodup_nil, fun _ => Nat.zero_le _⟩

theorem Tidy.check {l : Limiter} (h : l.Tidy) (client : String) (now : Int) : (l.check client now).2.Tidy := by
  refine ⟨(distinct_housekeep h.distinct now).put, fun other => ?_⟩
  rw [allowance_check]
  by_cases hc : other = client
  · rw [hc, times_check_self h.distinct]
    exact l.allowance.length_judge_times_le now (h.length_le client)
  · rw [times_check_of_ne h.distinct hc]
    split
    · exact Nat.zero_le _
    · exact h.length_le other

end Limiter
end InterestDesk
