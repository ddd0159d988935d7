import InterestDesk.Proofs.Admission.Memory
import InterestDesk.Proofs.Admission.Quota
/-!
# Stored — the lists that a limiter keeps

Nothing cuts a list to the limit: a check prunes the list of its client and adds a time only below the limit, and a
sweep drops whole lists.  What holds of every list a check finds, and of the one it makes for its own client, holds of
every list it leaves (`forall_clients_check`).  So each list has at most `limit` times, and at least one if the limit is
not zero (`Allowance.Stores`); by a clock that never goes back it is in order as well (`InOrder`), and its oldest time
is its first.
-/
namespace InterestDesk

/-- A list of times that a client with this allowance may be left. -/
structure Allowance.Stores (a : Allowance) (times : List Int) : Prop where
  length_le : times.length ≤ a.limit
  ne_nil : 1 ≤ a.limit → times ≠ []

/-- Times in order, none of them after `last`. -/
structure InOrder (last : Int) (times : List Int) : Prop where
  sorted : times.Pairwise (· ≤ ·)
  le_last : ∀ t ∈ times, t ≤ last

namespace InOrder

theorem nil (last : Int) : InOrder last [] :=
  ⟨.nil, fun _ ht => absurd ht List.not_mem_nil⟩

theorem later {last later : Int} {times : List Int} (h : InOrder last times) (hle : last ≤ later) :
    InOrder later times :=
  ⟨h.sorted, fun t ht => Int.le_trans (h.le_last t ht) hle⟩

theorem filter {last : Int} {times : List Int} (h : InOrder last times) (keep : Int → Bool) :
    InOrder last (times.filter keep) :=
  ⟨h.sorted.filter keep, fun t ht => h.le_last t (List.mem_filter.1 ht).1⟩

/-- The oldest of times in order is the first. -/
theorem min?_eq_head? {last : Int} {times : List Int} (h : InOrder last times) : times.min? = times.head? :=
  List.min?_eq_head? (h.sorted.imp Int.min_eq_left)

end InOrder

namespace Allowance

theorem Stores.judge {a : Allowance} {times : List Int} (h : times.length ≤ a.limit) (now : Int) :
    a.Stores (a.judge now times).2 := by
  refine ⟨a.length_judge_times_le now h, fun hlimit hnil => ?_⟩
  obtain ⟨t, ht, -⟩ := a.exists_recent_judge hlimit now times
  rw [hnil] at ht
  cases ht

theorem inOrder_judge {a : Allowance} {now : Int} {times : List Int} (h : InOrder now times) :
    InOrder now (a.judge now times).2 := by
  have hlive := h.filter (a.isLive now)
  rw [judge_times]
  split
  · refine ⟨List.pairwise_append.2 ⟨hlive.sorted, List.pairwise_singleton _ now, fun t ht other hother => ?_⟩, ?_⟩
    · rw [List.mem_singleton.1 hother]
      exact hlive.le_last t ht
    · exact List.forall_mem_append.2 ⟨hlive.le_last, List.forall_mem_singleton.2 (Int.le_refl now)⟩
  · rwa [List.append_nil]

/-- What an admitted request leaves of the limit, with the times then stored, is the limit. -/
theorem judge_remaining {a : Allowance} {now : Int} {times : List Int} (h : (a.judge now times).1.allowed = true) :
    (a.judge now times).1.remaining = a.limit - (a.judge now times).2.length ∧
      (a.judge now times).2.length ≤ a.limit := by
  have hroom := (a.judge_allowed_iff now times).1 h
  unfold judge
  dsimp only
  rw [if_neg (Nat.not_le.2 hroom), List.length_append]
  exact ⟨rfl, hroom⟩

end Allowance

namespace Roster

theorem mem_of_times_ne_nil {client : String} :
    ∀ {roster : Roster}, roster.times client ≠ [] → (client, roster.times client) ∈ roster
  | [], h => absurd rfl h
  | (other, times) :: rest, h => by
    by_cases hc : client = other
    · subst hc
      rw [times_cons_self]
      exact List.mem_cons_self
    · rw [times_cons_of_ne hc] at h ⊢
      exact List.mem_cons_of_mem _ (mem_of_times_ne_nil h)

/-- What holds of no times, and of the list of every client tracked, holds of the times of any client. -/
theorem forall_times {roster : Roster} {P : List Int → Prop} (hnil : P []) (h : ∀ entry ∈ roster, P entry.2)
    (client : String) : P (roster.times client) := by
  by_cases hc : roster.times client = []
  · rwa [hc]
  · exact h _ (mem_of_times_ne_nil hc)

end Roster

namespace Limiter

theorem mem_of_mem_housekeep {l : Limiter} {now : Int} {entry : String × List Int}
    (h : entry ∈ (l.housekeep now).clients) : entry ∈ l.clients := by
  unfold housekeep at h
  split at h
  · exact (List.mem_filter.1 h).1
  · exact h

/-- **A check makes one list, and leaves or drops each other one.** -/
theorem forall_clients_check {l : Limiter} (hdistinct : l.clients.Distinct) {P : List Int → Prop} {client : String}
    {now : Int} (h : ∀ entry ∈ l.clients, P entry.2) (hown : P (l.allowance.judge now (l.clients.times client)).2) :
    ∀ entry ∈ (l.check client now).2.clients, P entry.2 := by
  intro entry hentry
  rcases Roster.mem_put hentry with hmade | hold
  · rw [← judge_housekeep hdistinct] at hown
    rw [hmade]
    exact hown
  · exact h entry (mem_of_mem_housekeep hold)

theorem stores_after (plan : LimiterPlan) (past : List Arrival) :
    ∀ entry ∈ ((ofPlan plan).after past).clients, plan.allowance.Stores entry.2 := by
  induction past using List.reverseRecOn with
  | nil => exact fun entry hentry => absurd hentry List.not_mem_nil
  | append_singleton past x ih =>
    have htidy := (tidy_ofPlan plan).after past
    rw [after_concat]
    refine forall_clients_check htidy.distinct ih ?_
    have hjudge := Allowance.Stores.judge (htidy.length_le x.client) x.now
    rwa [allowance_after] at hjudge ⊢

theorem inOrder_after (plan : LimiterPlan) {past : List Arrival} (hmono : past.Pairwise fun x y => x.now ≤ y.now)
    {last : Int} (hle : ∀ x ∈ past, x.now ≤ last) :
    ∀ entry ∈ ((ofPlan plan).after past).clients, InOrder last entry.2 := by
  induction past using List.reverseRecOn generalizing last with
  | nil => exact fun entry hentry => absurd hentry List.not_mem_nil
  | append_singleton past x ih =>
    rw [List.pairwise_append] at hmono
    have hpast := ih hmono.1 fun y hy => hmono.2.2 y hy x List.mem_cons_self
    have hown := Allowance.inOrder_judge (a := ((ofPlan plan).after past).allowance)
      (Roster.forall_times (InOrder.nil x.now) hpast x.client)
    intro entry hentry
    rw [after_concat] at hentry
    exact (forall_clients_check ((tidy_ofPlan plan).after past).distinct hpast hown entry hentry).later
      (hle x (List.mem_append_right past List.mem_cons_self))

/-- **A limiter keeps no list that is too long, and no empty one that could hold a time.**  Whatever was checked, by
whatever clocks, each list has at most `limit` times, and at least one if the limit is not zero.  So the limit is never
less than the times then stored when a check is admitted, and what remains makes up the difference exactly.  By a clock
that never goes back each list is in order too, and its oldest time is its first. -/
theorem stored_within_limit (plan : LimiterPlan) (past : List Arrival) :
    let l := (ofPlan plan).after past
    (∀ entry ∈ l.clients, entry.2.length ≤ plan.allowance.limit ∧ (1 ≤ plan.allowance.limit → 1 ≤ entry.2.length)) ∧
      (∀ client now,
        let decision := (l.check client now).1
        let stored := (l.check client now).2.clients.times client
        decision.allowed = true →
          stored.length ≤ plan.allowance.limit ∧ decision.remaining = plan.allowance.limit - stored.length ∧
            decision.remaining + stored.length = plan.allowance.limit) ∧
      ((past.Pairwise fun x y => x.now ≤ y.now) →
        ∀ entry ∈ l.clients, entry.2.Pairwise (· ≤ ·) ∧ entry.2.min? = entry.2.head?) := by
  intro l
  have htidy : l.Tidy := (tidy_ofPlan plan).after past
  have ha : l.allowance = plan.allowance := allowance_after (ofPlan plan) past
  refine ⟨fun entry hentry => ?_, ?_, fun hmono entry hentry => ?_⟩
  · have hstores := stores_after plan past entry hentry
    exact ⟨hstores.length_le, fun hlimit => List.length_pos_iff.2 (hstores.ne_nil hlimit)⟩
  · intro client now decision stored hallowed
    have hdecision : decision = (l.allowance.judge now (l.clients.times client)).1 :=
      check_fst htidy.distinct client now
    have hstored : stored = (l.allowance.judge now (l.clients.times client)).2 :=
      times_check_self htidy.distinct client now
    rw [hdecision] at hallowed
    obtain ⟨hremaining, hle⟩ := Allowance.judge_remaining hallowed
    rw [← hdecision, ← hstored, ha] at hremaining
    rw [← hstored, ha] at hle
    exact ⟨hle, hremaining, by rw [hremaining, Nat.sub_add_cancel hle]⟩
  · have hpast : past ≠ [] := by
      rintro rfl
      cases hentry
    obtain ⟨last, -, hle⟩ := exists_latest hpast
    have horder := inOrder_after plan hmono hle entry hentry
    exact ⟨horder.sorted, horder.min?_eq_head?⟩

/-- Two clients by a clock that stands still once: the list of `a` is full and in order when its third check is turned
away, and `b` has one request left, with one stored. -/
theorem stored_within_limit_full :
    let plan : LimiterPlan := ⟨⟨2, 10⟩, 0, 0⟩
    let past : List Arrival := [⟨"a", 0⟩, ⟨"a", 3⟩, ⟨"a", 3⟩]
    let full : List Int := [0, 3]
    (past.Pairwise fun x y => x.now ≤ y.now) ∧ 1 ≤ plan.allowance.limit ∧
      (("a", full) ∈ ((ofPlan plan).after past).clients ∧ full.length ≤ plan.allowance.limit ∧ 1 ≤ full.length ∧
        full.Pairwise (· ≤ ·) ∧ full.min? = full.head?) ∧
      (((ofPlan plan).after past).check "b" 4).1.allowed = true ∧
      (((ofPlan plan).after past).check "b" 4).1.remaining +
        ((((ofPlan plan).after past).check "b" 4).2.clients.times "b").length = plan.allowance.limit := by
  intro plan past full
  have hmono : past.Pairwise fun x y => x.now ≤ y.now := by decide
  have hmem : ("a", full) ∈ ((ofPlan plan).after past).clients := by decide
  have hallowed : (((ofPlan plan).after past).check "b" 4).1.allowed = true := by decide
  obtain ⟨hbounds, hremaining, horder⟩ := stored_within_limit plan past
  obtain ⟨hle, hpos⟩ := hbounds _ hmem
  exact ⟨hmono, by decide, ⟨hmem, hle, hpos (by decide), horder hmono _ hmem⟩, hallowed,
    (hremaining "b" 4 hallowed).2.2⟩

/-- A clock that goes back leaves times out of order, and not the oldest in front. -/
example : ((ofPlan ⟨⟨2, 10⟩, 0, 0⟩).after [⟨"a", 5⟩, ⟨"a", 3⟩]).clients = [("a", [5, 3])] := by
  decide

end Limiter
end InterestDesk
