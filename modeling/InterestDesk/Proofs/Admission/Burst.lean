import InterestDesk.Proofs.Admission.Retry
/-!
# Burst — checks within one window

When all checks of a fresh limiter lie less than one window apart, each time it remembers is live at each check, so no
sweep forgets one and a client's list is the list of its admissions (`times_after_of_span`).  Then a client is admitted
until its quota is used up and not once more, in whatever order the checks come in.
-/
namespace InterestDesk
namespace Limiter

theorem isLive_of_span {l : Limiter} {past : List Arrival} {x : Arrival}
    (hspan : ∀ y ∈ past, x.now - y.now < l.allowance.window) (client : String) :
    ∀ t ∈ (l.log past).admissions client, l.allowance.isLive x.now t = true := by
  intro t ht
  obtain ⟨entry, hentry, -, -, rfl⟩ := Log.mem_admissions.1 ht
  have := hspan entry.1 (fst_mem_of_mem_log hentry)
  rw [Allowance.isLive_iff]
  omega

/-- **A fresh limiter forgets no admission within one window.** -/
theorem times_after_of_span (plan : LimiterPlan) {arrivals : List Arrival}
    (hspan : ∀ x ∈ arrivals, ∀ y ∈ arrivals, x.now - y.now < plan.allowance.window) (client : String) :
    ((ofPlan plan).after arrivals).clients.times client = ((ofPlan plan).log arrivals).admissions client := by
  induction arrivals using List.reverseRecOn generalizing client with
  | nil => rfl
  | append_singleton past x ih =>
    have h := (tidy_ofPlan plan).after past
    have hpast := fun client => ih (fun y hy z hz =>
      hspan y (List.mem_append_left _ hy) z (List.mem_append_left _ hz)) client
    have hlive : ∀ t ∈ ((ofPlan plan).log past).admissions client,
        ((ofPlan plan).after past).allowance.isLive x.now t = true := by
      rw [allowance_after]
      exact isLive_of_span (fun y hy => hspan x (by simp) y (List.mem_append_left _ hy)) client
    rw [after_concat, log_concat, Log.admissions_append]
    by_cases hc : client = x.client
    · subst hc
      rw [times_check_self h.distinct, Allowance.judge_times, ← check_fst h.distinct, Log.admissions_singleton_self,
        hpast, List.filter_eq_self.2 hlive]
    · rw [times_check_of_ne h.distinct hc, Log.admissions_singleton_of_ne hc, List.append_nil, hpast]
      split
      · rename_i hs
        rw [eq_comm, List.eq_nil_iff_forall_not_mem]
        exact fun t ht => List.any_eq_false.1 hs.2 t ht (hlive t ht)
      · rfl

/-- **A burst of checks fills the quota exactly**: of a client's checks within one window of a fresh limiter, as many
are admitted as the limit allows, whoever else asks and whichever way the clock goes. -/
theorem length_admissions_eq_min (plan : LimiterPlan) {arrivals : List Arrival}
    (hspan : ∀ x ∈ arrivals, ∀ y ∈ arrivals, x.now - y.now < plan.allowance.window) (client : String) :
    (((ofPlan plan).log arrivals).admissions client).length =
      min (arrivals.filter fun x => x.client == client).length plan.allowance.limit := by
  induction arrivals using List.reverseRecOn with
  | nil => exact (Nat.zero_min _).symm
  | append_singleton past x ih =>
    have hpast : ∀ y ∈ past, ∀ z ∈ past, y.now - z.now < plan.allowance.window := fun y hy z hz =>
      hspan y (List.mem_append_left _ hy) z (List.mem_append_left _ hz)
    have hcount := ih hpast
    rw [log_concat, Log.admissions_append, List.length_append, List.filter_append, List.length_append]
    by_cases hc : x.client = client
    · subst hc
      have hlive := isLive_of_span (l := ofPlan plan)
        (fun y hy => hspan x (by simp) y (List.mem_append_left _ hy)) x.client
      have hallowed := check_allowed_iff ((tidy_ofPlan plan).after past).distinct x.client x.now
      rw [allowance_after, times_after_of_span plan hpast, List.filter_eq_self.2 hlive] at hallowed
      have hlimit : (ofPlan plan).allowance.limit = plan.allowance.limit := rfl
      rw [Log.admissions_singleton_self]
      have hone : ([x].filter fun y => y.client == x.client).length = 1 := by simp
      rw [hone]
      split
      · rename_i h
        have := hallowed.1 h
        rw [List.length_singleton]
        omega
      · rename_i h
        have := mt hallowed.2 h
        rw [List.length_nil]
        omega
    · rw [Log.admissions_singleton_of_ne (Ne.symm hc), List.length_nil, Nat.add_zero, hcount]
      simp [hc]

end Limiter
end InterestDesk
