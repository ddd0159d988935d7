import InterestDesk.Proofs.Admission.Run
import Mathlib.Data.List.Induction
/-!
# Record — the limiter as a memory that forgets nothing

`Allowance.record` decides each check by the whole record of the decisions before it, with no pruning, no sweep and no
table of clients.  By a clock that never goes back the limiter makes the same decisions (`log_eq_record`), so a
client's decisions depend on its own checks and the allowance alone.
-/
namespace InterestDesk
namespace Allowance

/-- The times of a client's earlier admitted checks that are less than a window old. -/
def counted (a : Allowance) (record : Log) (x : Arrival) : List Int :=
  (record.admissions x.client).filter fun t => x.now - t < a.window

/-- How long until the oldest of some counted times is a window old; a whole window when there is none or the clock
cannot show that instant. -/
def hint (a : Allowance) (now : Int) (counted : List Int) : Nat :=
  match counted.min? with
  | some oldest => if oldest + a.window ≤ Clock.lastInstant then (oldest + a.window - now).toNat else a.window
  | none => a.window

/-- The decision on a check by the record of all decisions before it. -/
def verdict (a : Allowance) (record : Log) (x : Arrival) : Decision :=
  let counted := a.counted record x
  if counted.length < a.limit then ⟨true, a.limit, a.limit - counted.length - 1, 0⟩
  else ⟨false, a.limit, 0, a.hint x.now counted⟩

/-- The record of checks, each decided by the record before it. -/
def record (a : Allowance) (arrivals : List Arrival) : Log :=
  arrivals.foldl (fun record x => record ++ [(x, a.verdict record x)]) []

theorem record_concat (a : Allowance) (arrivals : List Arrival) (x : Arrival) :
    a.record (arrivals ++ [x]) = a.record arrivals ++ [(x, a.verdict (a.record arrivals) x)] :=
  List.foldl_append

theorem isLive_eq (a : Allowance) (now : Int) : a.isLive now = fun t => decide (now - t < a.window) := by
  funext t
  unfold isLive
  exact decide_eq_decide.2 (by omega)

theorem wait_counted (a : Allowance) (record : Log) (x : Arrival) :
    a.wait x.now (a.counted record x) = a.hint x.now (a.counted record x) := by
  unfold hint
  cases hm : (a.counted record x).min? with
  | none => exact a.wait_of_min?_eq_none hm
  | some oldest =>
    have hmem := List.min?_mem hm
    unfold counted at hmem
    rw [← isLive_eq] at hmem
    exact a.wait_of_min? hm (List.mem_filter.1 hmem).2

/-- **Times that agree with the record on what is live decide as the record does.** -/
theorem judge_eq_verdict (a : Allowance) {times : List Int} {record : Log} {x : Arrival}
    (h : times.filter (a.isLive x.now) = (record.admissions x.client).filter (a.isLive x.now)) :
    (a.judge x.now times).1 = a.verdict record x := by
  have hc : times.filter (a.isLive x.now) = a.counted record x := by
    rw [h, isLive_eq]
    rfl
  unfold judge verdict
  dsimp only
  rw [hc, wait_counted]
  by_cases hl : a.limit ≤ (a.counted record x).length
  · rw [if_pos hl, if_neg (Nat.not_lt.2 hl)]
  · rw [if_neg hl, if_pos (Nat.lt_of_not_le hl), Nat.sub_sub]

theorem verdict_ofClient (a : Allowance) (record : Log) (x : Arrival) :
    a.verdict (record.ofClient x.client) x = a.verdict record x := by
  have h : (record.ofClient x.client).admissions x.client = record.admissions x.client := by
    unfold Log.admissions Log.ofClient
    rw [List.filter_filter]
    simp
  unfold verdict counted
  rw [h]

/-- **The record of one client is the record of its own checks.** -/
theorem ofClient_record (a : Allowance) (client : String) (arrivals : List Arrival) :
    (a.record arrivals).ofClient client = a.record (arrivals.filter fun x => x.client == client) := by
  induction arrivals using List.reverseRecOn with
  | nil => rfl
  | append_singleton past x ih =>
    rw [record_concat, Log.ofClient_append, ih, List.filter_append]
    by_cases hc : x.client = client
    · subst hc
      have hone : [x].filter (fun y => y.client == x.client) = [x] := by simp
      rw [hone, record_concat, ← ih, verdict_ofClient]
      simp [Log.ofClient]
    · have hnone : [x].filter (fun y => y.client == client) = [] := by simpa using hc
      rw [hnone, List.append_nil]
      simp [Log.ofClient, hc]

end Allowance

namespace Limiter

theorem check_eq_verdict (plan : LimiterPlan) {past : List Arrival} {x : Arrival} (hle : ∀ y ∈ past, y.now ≤ x.now) :
    (((ofPlan plan).after past).check x.client x.now).1 = plan.allowance.verdict ((ofPlan plan).log past) x := by
  have h := tidy_ofPlan plan
  rw [check_fst (h.after past).distinct, allowance_after]
  exact plan.allowance.judge_eq_verdict (filter_times_after x.client h hle)

theorem log_ofPlan (plan : LimiterPlan) {arrivals : List Arrival} (hmono : arrivals.Pairwise fun x y => x.now ≤ y.now) :
    (ofPlan plan).log arrivals = plan.allowance.record arrivals := by
  induction arrivals using List.reverseRecOn with
  | nil => rfl
  | append_singleton past x ih =>
    rw [List.pairwise_append] at hmono
    have hle : ∀ y ∈ past, y.now ≤ x.now := fun y hy => hmono.2.2 y hy x List.mem_cons_self
    rw [log_concat, Allowance.record_concat, check_eq_verdict plan hle, ih hmono.1]

/-- **A limiter forgets nothing that counts**: by a clock that never goes back it decides each check as the full record
of earlier decisions does.  So the decisions on one client's checks are those of any limiter of the same allowance
that sees these checks alone. -/
theorem log_eq_record (plan : LimiterPlan) {arrivals : List Arrival}
    (hmono : arrivals.Pairwise fun x y => x.now ≤ y.now) :
    (ofPlan plan).log arrivals = plan.allowance.record arrivals ∧
      ∀ (other : LimiterPlan) (client : String), other.allowance = plan.allowance →
        ((ofPlan plan).log arrivals).ofClient client =
          (ofPlan other).log (arrivals.filter fun x => x.client == client) := by
  refine ⟨log_ofPlan plan hmono, fun other client ha => ?_⟩
  rw [log_ofPlan plan hmono, log_ofPlan other (hmono.filter _), ha, Allowance.ofClient_record]

/-- Two clients in turn at the edges of a window of ten, swept at each check or never: `b` loses its time at 10 to the
sweep at 20, and gets the same answers alone. -/
theorem log_eq_record_edges :
    let swept : LimiterPlan := ⟨⟨1, 10⟩, 0, 0⟩
    let lazy : LimiterPlan := ⟨⟨1, 10⟩, 1000, 3600⟩
    let arrivals : List Arrival := [⟨"a", 0⟩, ⟨"a", 9⟩, ⟨"b", 10⟩, ⟨"a", 10⟩, ⟨"b", 19⟩, ⟨"a", 20⟩, ⟨"b", 20⟩]
    (arrivals.Pairwise fun x y => x.now ≤ y.now) ∧
      (ofPlan swept).log arrivals = swept.allowance.record arrivals ∧
      ((ofPlan swept).log arrivals).ofClient "b" = (ofPlan lazy).log [⟨"b", 10⟩, ⟨"b", 19⟩, ⟨"b", 20⟩] :=
  have hmono : ([⟨"a", 0⟩, ⟨"a", 9⟩, ⟨"b", 10⟩, ⟨"a", 10⟩, ⟨"b", 19⟩, ⟨"a", 20⟩, ⟨"b", 20⟩] : List Arrival).Pairwise
      fun x y => x.now ≤ y.now := by decide
  have h := log_eq_record ⟨⟨1, 10⟩, 0, 0⟩ hmono
  ⟨hmono, h.1, h.2 ⟨⟨1, 10⟩, 1000, 3600⟩ "b" rfl⟩

end Limiter
end InterestDesk
