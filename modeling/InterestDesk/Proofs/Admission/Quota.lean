import InterestDesk.Proofs.Admission.Run
/-!
# Quota — at most `limit` admissions within one window

While checks lie less than one window apart, no admission among them can be forgotten: at the latest of them every one
is still live, so all of them stand in the client's list, which never has more than `limit` times.  The past of the
limiter, the other clients and the order of the clock do not matter.
-/
namespace InterestDesk
namespace Limiter

theorem exists_latest {arrivals : List Arrival} (h : arrivals ≠ []) :
    ∃ last ∈ arrivals, ∀ x ∈ arrivals, x.now ≤ last.now := by
  cases hm : (arrivals.map Arrival.now).max? with
  | none => exact absurd (List.map_eq_nil_iff.1 (List.max?_eq_none_iff.1 hm)) h
  | some latest =>
    obtain ⟨hmem, hle⟩ := List.max?_eq_some_iff.1 hm
    obtain ⟨last, hlast, rfl⟩ := List.mem_map.1 hmem
    exact ⟨last, hlast, fun x hx => hle x.now (List.mem_map_of_mem hx)⟩

/-- **Admissions less than one window apart all stand in the client's list.** -/
theorem length_admissions_le {l : Limiter} (h : l.Tidy) {block : List Arrival}
    (hspan : ∀ x ∈ block, ∀ y ∈ block, x.now - y.now < l.allowance.window) (client : String) :
    ((l.log block).admissions client).length ≤ l.allowance.limit := by
  by_cases hb : block = []
  · subst hb
    exact Nat.zero_le _
  · obtain ⟨last, hlast, hle⟩ := exists_latest hb
    have hlive : ∀ t ∈ (l.log block).admissions client, l.allowance.isLive last.now t = true := by
      intro t ht
      obtain ⟨entry, hentry, -, -, rfl⟩ := Log.mem_admissions.1 ht
      have := hspan last hlast entry.1 (fst_mem_of_mem_log hentry)
      rw [Allowance.isLive_iff]
      omega
    have hlaw := filter_times_after client h hle
    rw [List.filter_append, List.filter_eq_self.2 hlive] at hlaw
    calc ((l.log block).admissions client).length
        ≤ (((l.after block).clients.times client).filter (l.allowance.isLive last.now)).length := by
          rw [hlaw, List.length_append]
          exact Nat.le_add_left _ _
      _ ≤ ((l.after block).clients.times client).length := List.length_filter_le _ _
      _ ≤ l.allowance.limit := by
          have := (h.after block).length_le client
          rwa [allowance_after] at this

/-- **The quota holds after any past**: of checks less than one window apart, by any clients and with a clock that may
go backwards, at most `limit` of one client are admitted. -/
theorem length_admissions_le_limit (plan : LimiterPlan) (past block : List Arrival)
    (hspan : ∀ x ∈ block, ∀ y ∈ block, x.now - y.now < plan.allowance.window) (client : String) :
    ((((ofPlan plan).after past).log block).admissions client).length ≤ plan.allowance.limit := by
  have h := (tidy_ofPlan plan).after past
  have ha : ((ofPlan plan).after past).allowance = plan.allowance := allowance_after (ofPlan plan) past
  rw [← ha] at hspan ⊢
  exact length_admissions_le h hspan client

/-- Four checks of `a` go backwards from 24 to 16 behind a past that runs up to 100, with a sweep due at each check:
the quota of two is reached and kept. -/
theorem length_admissions_backwards :
    let plan : LimiterPlan := ⟨⟨2, 10⟩, 0, 0⟩
    let past : List Arrival := [⟨"a", 0⟩, ⟨"b", 100⟩]
    let block : List Arrival := [⟨"a", 24⟩, ⟨"b", 23⟩, ⟨"a", 20⟩, ⟨"a", 16⟩, ⟨"b", 15⟩, ⟨"a", 24⟩]
    (∀ x ∈ block, ∀ y ∈ block, x.now - y.now < plan.allowance.window) ∧
      (((ofPlan plan).after past).log block).admissions "a" = [24, 20] ∧
      ((((ofPlan plan).after past).log block).admissions "a").length ≤ 2 :=
  ⟨by decide, by decide, length_admissions_le_limit ⟨⟨2, 10⟩, 0, 0⟩ _ _ (by decide) "a"⟩

/-- Checks by a clock that never goes back, cut at an instant and one window after it. -/
theorem exists_block {arrivals : List Arrival} (h : arrivals.Pairwise fun x y => x.now ≤ y.now) (start : Int)
    (window : Nat) :
    ∃ past block rest, arrivals = past ++ block ++ rest ∧ (∀ x ∈ past, x.now < start) ∧
      (∀ x ∈ block, start ≤ x.now ∧ x.now < start + window) ∧ (∀ x ∈ rest, start + window ≤ x.now) := by
  induction arrivals with
  | nil => exact ⟨[], [], [], rfl, by simp, by simp, by simp⟩
  | cons x arrivals ih =>
    rw [List.pairwise_cons] at h
    obtain ⟨past, block, rest, rfl, hpast, hblock, hrest⟩ := ih h.2
    by_cases hx : x.now < start
    · exact ⟨x :: past, block, rest, rfl, List.forall_mem_cons.2 ⟨hx, hpast⟩, hblock, hrest⟩
    -- From here on nothing may stand before the block.
    · have hnil : past = [] := List.eq_nil_iff_forall_not_mem.2 fun y hy => by
        have := hpast y hy
        have := h.1 y (by simp [hy])
        omega
      subst hnil
      by_cases hw : x.now < start + window
      · exact ⟨[], x :: block, rest, rfl, by simp, List.forall_mem_cons.2 ⟨⟨by omega, hw⟩, hblock⟩, hrest⟩
      · have hnone : block = [] := List.eq_nil_iff_forall_not_mem.2 fun y hy => by
          have := (hblock y hy).2
          have := h.1 y (by simp [hy])
          omega
        subst hnone
        exact ⟨[], [], x :: rest, rfl, by simp, by simp, List.forall_mem_cons.2 ⟨by omega, hrest⟩⟩

/-- **By a clock that never goes back, any span of one window holds at most `limit` admissions of a client.** -/
theorem length_admissions_span_le (plan : LimiterPlan) {arrivals : List Arrival}
    (hmono : arrivals.Pairwise fun x y => x.now ≤ y.now) (client : String) (start : Int) :
    ((((ofPlan plan).log arrivals).admissions client).filter
        fun t => start ≤ t ∧ t < start + plan.allowance.window).length ≤ plan.allowance.limit := by
  obtain ⟨past, block, rest, rfl, hpast, hblock, hrest⟩ := exists_block hmono start plan.allowance.window
  have hout : ∀ (l : Limiter) (xs : List Arrival),
      (∀ x ∈ xs, ¬ (start ≤ x.now ∧ x.now < start + plan.allowance.window)) →
        ((l.log xs).admissions client).filter
          (fun t => decide (start ≤ t ∧ t < start + plan.allowance.window)) = [] := by
    intro l xs hxs
    rw [List.filter_eq_nil_iff]
    intro t ht
    obtain ⟨entry, hentry, -, -, rfl⟩ := Log.mem_admissions.1 ht
    rw [decide_eq_true_iff]
    exact hxs entry.1 (fst_mem_of_mem_log hentry)
  have hspan : ∀ x ∈ block, ∀ y ∈ block, x.now - y.now < ((ofPlan plan).after past).allowance.window := by
    intro x hx y hy
    have := hblock x hx
    have := hblock y hy
    rw [allowance_after]
    show x.now - y.now < plan.allowance.window
    omega
  rw [log_append, log_append, Log.admissions_append, Log.admissions_append, List.filter_append, List.filter_append,
    hout _ past fun x hx hs => by have := hpast x hx; omega,
    hout _ rest fun x hx hs => by have := hrest x hx; omega, List.nil_append, List.append_nil]
  refine Nat.le_trans (List.length_filter_le _ _) ?_
  have hq := length_admissions_le ((tidy_ofPlan plan).after past) hspan client
  rwa [allowance_after] at hq

end Limiter
end InterestDesk
