import InterestDesk.Proofs.Admission.Run
import Mathlib.Data.List.Induction
/-!
# Retry — the wait a rejected client is told is exact

A rejection leaves the client a full list of live times, and nothing but the passing of time can empty it.  So the
client is barred while the oldest of them is live, however often it tries and whatever is swept meanwhile, and it has
room as soon as that one is a window old.
-/
namespace InterestDesk
namespace Limiter

theorem check_allowed_iff {l : Limiter} (h : l.clients.Distinct) (client : String) (now : Int) :
    (l.check client now).1.allowed = true ↔
      ((l.clients.times client).filter (l.allowance.isLive now)).length < l.allowance.limit := by
  rw [check_fst h]
  exact l.allowance.judge_allowed_iff now _

/-- **A client whose quota is still used up at `later` is admitted at no time up to then.** -/
theorem not_allowed_of_full {l : Limiter} (h : l.Tidy) {client : String} {later : Int}
    (hfull : l.allowance.limit ≤ ((l.clients.times client).filter (l.allowance.isLive later)).length)
    {arrivals : List Arrival} (hle : ∀ x ∈ arrivals, x.now ≤ later) :
    ∀ entry ∈ l.log arrivals, entry.1.client = client → entry.2.allowed = false := by
  induction arrivals using List.reverseRecOn with
  | nil => exact fun entry hentry => absurd hentry List.not_mem_nil
  | append_singleton past x ih =>
    rw [List.forall_mem_append] at hle
    obtain ⟨hpast, hx⟩ := hle
    rw [log_concat, List.forall_mem_append]
    refine ⟨ih hpast, List.forall_mem_singleton.2 fun hc => ?_⟩
    have hx := List.forall_mem_singleton.1 hx
    -- What is live at `later` is live at the check as well, so the check finds at least as many times.
    have hcount : ((l.clients.times client).filter (l.allowance.isLive later)).length ≤
        (((l.after past).clients.times client).filter (l.allowance.isLive x.now)).length := by
      have hlaw := congrArg List.length (filter_times_after client h hpast)
      rw [List.filter_append, List.length_append] at hlaw
      refine Nat.le_trans (Nat.le_add_right _ _) (Nat.le_trans (Nat.le_of_eq hlaw.symm) ?_)
      rw [← l.allowance.filter_live_of_le hx]
      exact List.length_filter_le _ _
    rw [← hc] at hcount hfull
    rw [← Bool.not_eq_true, check_allowed_iff (h.after past).distinct, allowance_after]
    exact Nat.not_lt.2 (Nat.le_trans hfull hcount)

/-- **A rejected check leaves its client the live times**, as many as it may make requests. -/
theorem times_check_of_rejected {l : Limiter} (h : l.Tidy) {client : String} {now : Int}
    (hrejected : (l.check client now).1.allowed = false) :
    (l.check client now).2.clients.times client = (l.clients.times client).filter (l.allowance.isLive now) ∧
      ((l.check client now).2.clients.times client).length = l.allowance.limit ∧
      (l.check client now).1.retryAfter = l.allowance.wait now ((l.check client now).2.clients.times client) := by
  have hfull : l.allowance.limit ≤ ((l.clients.times client).filter (l.allowance.isLive now)).length := by
    rw [← Bool.not_eq_true, check_allowed_iff h.distinct] at hrejected
    exact Nat.le_of_not_lt hrejected
  have htimes : (l.check client now).2.clients.times client =
      (l.clients.times client).filter (l.allowance.isLive now) := by
    rw [times_check_self h.distinct, Allowance.judge, if_pos hfull]
  have hle := (h.check client now).length_le client
  rw [allowance_check] at hle
  refine ⟨htimes, Nat.le_antisymm hle (htimes ▸ hfull), ?_⟩
  rw [check_fst h.distinct, htimes, Allowance.judge, if_pos hfull]

/-- The oldest time a rejected check leaves its client is live, and the wait is until it is a window old. -/
theorem exists_oldest_of_rejected {l : Limiter} (h : l.Tidy) {client : String} {now : Int}
    (hlimit : 1 ≤ l.allowance.limit) (hrejected : (l.check client now).1.allowed = false) :
    ∃ oldest, ((l.check client now).2.clients.times client).min? = some oldest ∧ now < oldest + l.allowance.window ∧
      (l.check client now).1.retryAfter =
        if oldest + l.allowance.window ≤ Clock.lastInstant then (oldest + l.allowance.window - now).toNat
        else l.allowance.window := by
  obtain ⟨htimes, hlen, hwait⟩ := times_check_of_rejected h hrejected
  cases hmin : ((l.check client now).2.clients.times client).min? with
  | none =>
    rw [List.min?_eq_none_iff.1 hmin, List.length_nil] at hlen
    omega
  | some oldest =>
    have hmem := List.min?_mem hmin
    rw [htimes] at hmem
    have hlive := (List.mem_filter.1 hmem).2
    exact ⟨oldest, rfl, (l.allowance.isLive_iff now oldest).1 hlive, hwait.trans (l.allowance.wait_of_min? hmin hlive)⟩

/-- **A full client is barred until its oldest time is a window old, and has room from then on.** -/
theorem barred_then_free {l : Limiter} (h : l.Tidy) {client : String}
    (hfull : (l.clients.times client).length = l.allowance.limit) {oldest : Int}
    (hmin : (l.clients.times client).min? = some oldest) {arrivals : List Arrival}
    (hbefore : ∀ x ∈ arrivals, x.now < oldest + l.allowance.window) :
    (∀ entry ∈ l.log arrivals, entry.1.client = client → entry.2.allowed = false) ∧
      ∀ now, oldest + l.allowance.window ≤ now → ((l.after arrivals).check client now).1.allowed = true := by
  obtain ⟨hmem, hleast⟩ := List.min?_eq_some_iff.1 hmin
  have hlive : ∀ t ∈ l.clients.times client, l.allowance.isLive (oldest + l.allowance.window - 1) t = true := by
    intro t ht
    have := hleast t ht
    rw [Allowance.isLive_iff]
    omega
  have hbarred := not_allowed_of_full h (Nat.le_of_eq (by rw [List.filter_eq_self.2 hlive, hfull]))
    fun x hx => Int.le_sub_one_of_lt (hbefore x hx)
  refine ⟨hbarred, fun now hnow => ?_⟩
  have hnone : (l.log arrivals).admissions client = [] := by
    rw [List.eq_nil_iff_forall_not_mem]
    intro t ht
    obtain ⟨entry, hentry, hc, hallowed, -⟩ := Log.mem_admissions.1 ht
    rw [hbarred entry hentry hc] at hallowed
    cases hallowed
  have hexpired : ¬ l.allowance.isLive now oldest = true := by
    rw [Allowance.isLive_iff]
    omega
  rw [check_allowed_iff (h.after arrivals).distinct, allowance_after,
    filter_times_after client h fun x hx => Int.le_of_lt (Int.lt_of_lt_of_le (hbefore x hx) hnow), hnone,
    List.append_nil, ← hfull]
  exact List.length_filter_lt_length_iff_exists.2 ⟨oldest, hmem, hexpired⟩

/-- **The wait is exact.**  A rejected client with a positive limit is left an oldest time.  If the clock can show the
end of its window, the wait is positive and lasts to that end: until then no check of the client is admitted, whatever
else is checked, and from then on a check is.  If the clock cannot, the wait is a whole window, and no check of the
client is admitted at any instant the clock can show. -/
theorem retryAfter_exact (plan : LimiterPlan) (past : List Arrival) (client : String) (now : Int)
    (hlimit : 1 ≤ plan.allowance.limit)
    (hrejected : (((ofPlan plan).after past).check client now).1.allowed = false) :
    let decision := (((ofPlan plan).after past).check client now).1
    let rest := (((ofPlan plan).after past).check client now).2
    ∃ oldest, (rest.clients.times client).min? = some oldest ∧
      (oldest + plan.allowance.window ≤ Clock.lastInstant →
        0 < decision.retryAfter ∧
        ∀ arrivals : List Arrival, (∀ x ∈ arrivals, x.now < now + decision.retryAfter) →
          (∀ entry ∈ rest.log arrivals, entry.1.client = client → entry.2.allowed = false) ∧
          ∀ t, now + decision.retryAfter ≤ t → ((rest.after arrivals).check client t).1.allowed = true) ∧
      (Clock.lastInstant < oldest + plan.allowance.window →
        decision.retryAfter = plan.allowance.window ∧
        ∀ arrivals : List Arrival, (∀ x ∈ arrivals, x.now ≤ Clock.lastInstant) →
          ∀ entry ∈ rest.log arrivals, entry.1.client = client → entry.2.allowed = false) := by
  have ha : ((ofPlan plan).after past).allowance = plan.allowance := allowance_after (ofPlan plan) past
  have h := (tidy_ofPlan plan).after past
  rw [← ha] at hlimit ⊢
  generalize (ofPlan plan).after past = l at h hlimit hrejected ⊢
  obtain ⟨-, hfull, -⟩ := times_check_of_rejected h hrejected
  obtain ⟨oldest, hmin, hlive, hwait⟩ := exists_oldest_of_rejected h hlimit hrejected
  have hrest := h.check client now
  rw [← allowance_check l client now] at hfull hlive hwait ⊢
  refine ⟨oldest, hmin, fun hshown => ?_, fun hhidden => ?_⟩
  · rw [if_pos hshown] at hwait
    have hfree : now + ((l.check client now).1.retryAfter : Int) =
        oldest + (l.check client now).2.allowance.window := by omega
    refine ⟨by omega, fun arrivals hbefore => ?_⟩
    rw [hfree] at hbefore ⊢
    exact barred_then_free hrest hfull hmin hbefore
  · rw [if_neg (Int.not_le.2 hhidden)] at hwait
    refine ⟨hwait, fun arrivals hshown => ?_⟩
    exact (barred_then_free hrest hfull hmin fun x hx => Int.lt_of_le_of_lt (hshown x hx) hhidden).1

/-- Times 20 and 15 admitted out of order bar a client at 21 for exactly four; times six before the last instant bar it
for good, and it is told a whole window. -/
theorem retryAfter_exact_skewed :
    let plan : LimiterPlan := ⟨⟨2, 10⟩, 0, 0⟩
    let skewed := (ofPlan plan).after [⟨"a", 20⟩, ⟨"a", 15⟩]
    let late := (ofPlan plan).after [⟨"a", Clock.lastInstant - 6⟩, ⟨"a", Clock.lastInstant - 6⟩]
    1 ≤ plan.allowance.limit ∧
      ((skewed.check "a" 21).1 = ⟨false, 2, 0, 4⟩ ∧
        ∀ arrivals : List Arrival, (∀ x ∈ arrivals, x.now < 25) →
          (∀ entry ∈ (skewed.check "a" 21).2.log arrivals, entry.1.client = "a" → entry.2.allowed = false) ∧
          ∀ t, 25 ≤ t → (((skewed.check "a" 21).2.after arrivals).check "a" t).1.allowed = true) ∧
      (late.check "a" Clock.lastInstant).1 = ⟨false, 2, 0, 10⟩ ∧
        ∀ arrivals : List Arrival, (∀ x ∈ arrivals, x.now ≤ Clock.lastInstant) →
          ∀ entry ∈ (late.check "a" Clock.lastInstant).2.log arrivals, entry.1.client = "a" →
            entry.2.allowed = false := by
  dsimp only
  refine ⟨by decide, ⟨by decide, ?_⟩, by decide +kernel, ?_⟩
  · obtain ⟨oldest, hmin, hshown, -⟩ :=
      retryAfter_exact ⟨⟨2, 10⟩, 0, 0⟩ [⟨"a", 20⟩, ⟨"a", 15⟩] "a" 21 (by decide) (by decide)
    have holdest : some oldest = some 15 := hmin.symm.trans (by decide)
    cases holdest
    exact (hshown (by decide +kernel)).2
  · obtain ⟨oldest, hmin, -, hhidden⟩ :=
      retryAfter_exact ⟨⟨2, 10⟩, 0, 0⟩ [⟨"a", Clock.lastInstant - 6⟩, ⟨"a", Clock.lastInstant - 6⟩] "a"
        Clock.lastInstant (by decide) (by decide +kernel)
    have holdest : some oldest = some (Clock.lastInstant - 6) := hmin.symm.trans (by decide +kernel)
    cases holdest
    exact (hhidden (by decide +kernel)).2

end Limiter
end InterestDesk
