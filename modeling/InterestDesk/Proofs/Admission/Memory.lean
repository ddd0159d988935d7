import InterestDesk.Proofs.Admission.Run
import Mathlib.Data.List.Dedup
import Mathlib.Data.List.Induction
import Mathlib.Data.List.Perm.Subperm
/-!
# Memory — how long a client stays tracked

Sweeps are scheduled from an instant: that of the first check, and from then on that of the latest sweep.  Each client
tracked has a time that was live at that instant or is not before it (`Swept`), since a sweep keeps only live times and
a check leaves its client a time of its own or a live one.  The next sweep is one interval after that instant, or past
the end of the clock, so by a clock that never goes back every client tracked was admitted within the last window and
interval (`tracked_were_admitted`), and clients are as few as that.
-/
namespace InterestDesk

theorem Allowance.exists_recent_judge (a : Allowance) (hlimit : 1 ≤ a.limit) (now : Int) (times : List Int) :
    ∃ t ∈ (a.judge now times).2, now ≤ t ∨ a.isLive now t = true := by
  by_cases hfull : a.limit ≤ (times.filter (a.isLive now)).length
  · obtain ⟨t, ht⟩ := List.exists_mem_of_length_pos (Nat.lt_of_lt_of_le hlimit hfull)
    refine ⟨t, ?_, .inr (List.mem_filter.1 ht).2⟩
    rwa [judge, if_pos hfull]
  · refine ⟨now, ?_, .inl (Int.le_refl now)⟩
    rw [judge, if_neg hfull]
    exact List.mem_append_right _ List.mem_cons_self

theorem Roster.mem_put {client : String} {new : List Int} {entry : String × List Int} :
    ∀ {roster : Roster}, entry ∈ put client new roster → entry = (client, new) ∨ entry ∈ roster
  | [], h => .inl (List.mem_singleton.1 h)
  | first :: rest, h => by
    unfold put at h
    split at h
    · rcases List.mem_cons.1 h with h | h
      · exact .inl h
      · exact .inr (List.mem_cons_of_mem first h)
    · rcases List.mem_cons.1 h with h | h
      · exact .inr (h ▸ List.mem_cons_self)
      · exact (mem_put h).imp_right (List.mem_cons_of_mem first)

theorem Roster.times_of_mem {entry : String × List Int} :
    ∀ {roster : Roster}, roster.Distinct → entry ∈ roster → roster.times entry.1 = entry.2
  | first :: rest, h, hmem => by
    unfold Distinct at h
    rw [List.map_cons, List.nodup_cons] at h
    rcases List.mem_cons.1 hmem with rfl | hrest
    · exact times_cons_self entry.1 entry.2 rest
    · have hne : entry.1 ≠ first.1 := fun heq => h.1 (heq ▸ List.mem_map_of_mem hrest)
      exact (times_cons_of_ne hne first.2 rest).trans (times_of_mem h.2 hrest)

namespace Limiter

/-- The sweeps are scheduled from `since`, and each client tracked has a time not before it or live then. -/
structure Swept (l : Limiter) (since : Int) : Prop where
  nextSweep_eq : l.nextSweep = Clock.after? since l.sweepInterval
  recent : ∀ entry ∈ l.clients, ∃ t ∈ entry.2, since ≤ t ∨ l.allowance.isLive since t = true

/-- What the checks up to `now` can have made of a limiter: nothing yet, or one whose sweeps are scheduled. -/
inductive Scheduled (l : Limiter) (now : Int) : Prop
  | fresh (clients_eq : l.clients = []) (nextSweep_eq : l.nextSweep = none)
  | swept (since : Int) (le : since ≤ now) (h : l.Swept since)

theorem Scheduled.later {l : Limiter} {now later : Int} (h : l.Scheduled now) (hle : now ≤ later) :
    l.Scheduled later := by
  cases h with
  | fresh hclients hnext => exact .fresh hclients hnext
  | swept since hsince h => exact .swept since (Int.le_trans hsince hle) h

@[simp] theorem sweepInterval_housekeep (l : Limiter) (now : Int) :
    (l.housekeep now).sweepInterval = l.sweepInterval := by
  unfold housekeep
  split
  · rfl
  · rfl

@[simp] theorem sweepInterval_after (l : Limiter) (arrivals : List Arrival) :
    (l.after arrivals).sweepInterval = l.sweepInterval := by
  induction arrivals generalizing l with
  | nil => rfl
  | cons x rest ih => rw [after_cons, ih, check, sweepInterval_housekeep]

/-- **After housekeeping the sweeps are scheduled from now, or from less than an interval ago.** -/
theorem Scheduled.housekeep {l : Limiter} {now : Int} (h : l.Scheduled now) (hshown : now ≤ Clock.lastInstant) :
    ∃ since ≤ now, (l.housekeep now).Swept since ∧ (since = now ∨ now < since + l.sweepInterval) := by
  unfold Limiter.housekeep
  by_cases hdue : l.isSweepDue now = true
  · rw [if_pos hdue]
    refine ⟨now, Int.le_refl now, ⟨rfl, fun entry hentry => ?_⟩, .inl rfl⟩
    obtain ⟨t, ht, hlive⟩ := List.any_eq_true.1 (List.mem_filter.1 hentry).2
    exact ⟨t, ht, .inr hlive⟩
  · rw [if_neg hdue]
    cases h with
    | fresh hclients hnext =>
      refine ⟨now, Int.le_refl now, ⟨?_, fun entry hentry => ?_⟩, .inl rfl⟩
      · dsimp only
        rw [hnext]
        rfl
      · dsimp only at hentry
        rw [hclients] at hentry
        cases hentry
    | swept since hsince h =>
      unfold isSweepDue at hdue
      rw [h.nextSweep_eq] at hdue
      refine ⟨since, hsince, ⟨?_, h.recent⟩, .inr ?_⟩
      · dsimp only
        rw [h.nextSweep_eq]
        unfold Clock.after?
        split
        · rfl
        -- What the clock cannot show from the earlier instant it cannot show from now.
        · rename_i hpast
          exact if_neg (by omega)
      · unfold Clock.after? at hdue
        split at hdue
        · simpa using hdue
        · omega

theorem Swept.put {l : Limiter} {since now : Int} (h : l.Swept since) (hsince : since ≤ now)
    (hlimit : 1 ≤ l.allowance.limit) (client : String) (times : List Int) :
    Swept { l with clients := l.clients.put client (l.allowance.judge now times).2 } since := by
  refine ⟨h.nextSweep_eq, fun entry hentry => ?_⟩
  rcases Roster.mem_put hentry with rfl | hold
  · obtain ⟨t, ht, hrecent⟩ := l.allowance.exists_recent_judge hlimit now times
    exact ⟨t, ht, hrecent.imp (Int.le_trans hsince) (l.allowance.isLive_of_le hsince)⟩
  · exact h.recent entry hold

/-- **One check leaves each client tracked a time of the last window and interval.** -/
theorem Scheduled.check {l : Limiter} {now : Int} (h : l.Scheduled now) (hlimit : 1 ≤ l.allowance.limit)
    (hpos : 0 < l.allowance.window + l.sweepInterval) (hshown : now ≤ Clock.lastInstant) (client : String) :
    (l.check client now).2.Scheduled now ∧
      ∀ entry ∈ (l.check client now).2.clients, ∃ t ∈ entry.2, now < t + l.allowance.window + l.sweepInterval := by
  obtain ⟨since, hsince, hswept, hlate⟩ := h.housekeep hshown
  have hnext := hswept.put hsince (by rwa [allowance_housekeep]) client ((l.housekeep now).clients.times client)
  refine ⟨.swept since hsince hnext, fun entry hentry => ?_⟩
  obtain ⟨t, ht, hrecent⟩ := hnext.recent entry hentry
  refine ⟨t, ht, ?_⟩
  dsimp only at hrecent
  rw [allowance_housekeep, Allowance.isLive_iff] at hrecent
  omega

theorem scheduled_after (plan : LimiterPlan) (hlimit : 1 ≤ plan.allowance.limit)
    (hpos : 0 < plan.allowance.window + plan.sweepInterval) {past : List Arrival} {last : Int}
    (hmono : past.Pairwise fun y z => y.now ≤ z.now) (hle : ∀ y ∈ past, y.now ≤ last)
    (hshown : last ≤ Clock.lastInstant) : ((ofPlan plan).after past).Scheduled last := by
  induction past using List.reverseRecOn generalizing last with
  | nil => exact .fresh rfl rfl
  | append_singleton past x ih =>
    rw [List.pairwise_append] at hmono
    have hx := hle x (by simp)
    have h := ih hmono.1 (fun y hy => hmono.2.2 y hy x List.mem_cons_self) (Int.le_trans hx hshown)
    rw [after_concat]
    refine (h.check ?_ ?_ (Int.le_trans hx hshown) x.client).1.later hx
    · rwa [allowance_after]
    · rwa [allowance_after, sweepInterval_after]

/-- **A limiter remembers only what it admitted.** -/
theorem mem_admissions_of_mem_times (plan : LimiterPlan) {arrivals : List Arrival} {client : String} {t : Int}
    (ht : t ∈ ((ofPlan plan).after arrivals).clients.times client) :
    t ∈ ((ofPlan plan).log arrivals).admissions client := by
  induction arrivals using List.reverseRecOn generalizing t with
  | nil => cases ht
  | append_singleton past x ih =>
    have h := ((tidy_ofPlan plan).after past).distinct
    rw [log_concat, Log.admissions_append, List.mem_append]
    rw [after_concat] at ht
    by_cases hc : client = x.client
    · subst hc
      rw [times_check_self h, Allowance.judge_times, ← check_fst h, List.mem_append] at ht
      rw [Log.admissions_singleton_self]
      exact ht.imp_left fun hold => ih (List.mem_filter.1 hold).1
    · rw [times_check_of_ne h hc] at ht
      split at ht
      · cases ht
      · exact .inl (ih ht)

end Limiter

/-- The clients with an admission at an instant that satisfies `p`, each of them once. -/
def Log.admittedClients (log : Log) (p : Int → Bool) : List String :=
  ((log.filter fun entry => entry.2.allowed && p entry.1.now).map fun entry => entry.1.client).dedup

theorem Log.mem_admittedClients {log : Log} {p : Int → Bool} {client : String} {t : Int}
    (ht : t ∈ log.admissions client) (hp : p t = true) : client ∈ log.admittedClients p := by
  obtain ⟨entry, hentry, rfl, hallowed, rfl⟩ := Log.mem_admissions.1 ht
  rw [admittedClients, List.mem_dedup]
  exact List.mem_map_of_mem (List.mem_filter.2 ⟨hentry, by rw [hallowed, hp]; rfl⟩)

namespace Limiter

/-- **Clients are tracked for a window and an interval at most.**  After each check by a clock that never goes back,
every client tracked has a time of its own, that of an admission, less than a window and a sweep interval ago; so no
more clients are tracked than were admitted since then.  It makes no difference whether the clock can show the next
sweep. -/
theorem tracked_were_admitted (plan : LimiterPlan) (hlimit : 1 ≤ plan.allowance.limit)
    (hpos : 0 < plan.allowance.window + plan.sweepInterval) {past : List Arrival} {x : Arrival}
    (hmono : (past ++ [x]).Pairwise fun y z => y.now ≤ z.now) (hshown : x.now ≤ Clock.lastInstant) :
    let l := (ofPlan plan).after (past ++ [x])
    let log := (ofPlan plan).log (past ++ [x])
    let isRecent := fun t : Int => decide (x.now < t + plan.allowance.window + plan.sweepInterval)
    (∀ entry ∈ l.clients, ∃ t ∈ entry.2, t ∈ log.admissions entry.1 ∧ isRecent t = true) ∧
      l.size ≤ (log.admittedClients isRecent).length := by
  intro l log isRecent
  have htidy : l.Tidy := (tidy_ofPlan plan).after (past ++ [x])
  have htracked : ∀ entry ∈ l.clients, ∃ t ∈ entry.2, t ∈ log.admissions entry.1 ∧ isRecent t = true := by
    intro entry hentry
    rw [List.pairwise_append] at hmono
    have hscheduled := scheduled_after plan hlimit hpos hmono.1
      (fun y hy => hmono.2.2 y hy x List.mem_cons_self) hshown
    have hstep := hscheduled.check (by rwa [allowance_after]) (by rwa [allowance_after, sweepInterval_after]) hshown
      x.client
    rw [← after_concat, allowance_after, sweepInterval_after] at hstep
    obtain ⟨t, ht, hrecent⟩ := hstep.2 entry hentry
    refine ⟨t, ht, mem_admissions_of_mem_times plan ?_, decide_eq_true hrecent⟩
    rwa [Roster.times_of_mem htidy.distinct hentry]
  refine ⟨htracked, ?_⟩
  have hsubset : l.clients.map Prod.fst ⊆ log.admittedClients isRecent := by
    intro client hclient
    obtain ⟨entry, hentry, rfl⟩ := List.mem_map.1 hclient
    obtain ⟨t, -, hadmitted, hrecent⟩ := htracked entry hentry
    exact Log.mem_admittedClients hadmitted hrecent
  have hle := (List.subperm_of_subset htidy.distinct hsubset).length_le
  rwa [List.length_map] at hle

/-- A window of ten with sweeps five apart: the sweep at 14 drops `a` and leaves two clients.  At the end of the clock
no sweep can be scheduled any more, and the clients tracked at the last instant were admitted in the last fifteen. -/
theorem tracked_were_admitted_edges :
    let plan : LimiterPlan := ⟨⟨1, 10⟩, 0, 5⟩
    let swept := [⟨"a", 0⟩, ⟨"b", 8⟩] ++ [(⟨"c", 14⟩ : Arrival)]
    let late := [⟨"a", Clock.lastInstant - 4⟩] ++ [(⟨"b", Clock.lastInstant⟩ : Arrival)]
    (1 ≤ plan.allowance.limit ∧ 0 < plan.allowance.window + plan.sweepInterval ∧
        (swept.Pairwise fun y z => y.now ≤ z.now) ∧ 14 ≤ Clock.lastInstant) ∧
      (((ofPlan plan).after swept).clients = [("b", [8]), ("c", [14])] ∧
        ((ofPlan plan).after swept).size ≤
          (((ofPlan plan).log swept).admittedClients fun t => decide (14 < t + (10 : Nat) + (5 : Nat))).length) ∧
      ((ofPlan plan).after late).nextSweep = none ∧
        ∀ entry ∈ ((ofPlan plan).after late).clients, ∃ t ∈ entry.2,
          t ∈ ((ofPlan plan).log late).admissions entry.1 ∧
            decide (Clock.lastInstant < t + (10 : Nat) + (5 : Nat)) = true := by
  intro plan swept late
  have hsorted : swept.Pairwise fun y z => y.now ≤ z.now := by decide
  have hlast : late.Pairwise fun y z => y.now ≤ z.now := by decide +kernel
  have hswept := tracked_were_admitted plan (by decide) (by decide) hsorted (by decide)
  have hlate := tracked_were_admitted plan (by decide) (by decide) hlast (by decide)
  exact ⟨⟨by decide, by decide, hsorted, by decide⟩, ⟨by decide, hswept.2⟩, by decide +kernel, hlate.1⟩

end Limiter
end InterestDesk
