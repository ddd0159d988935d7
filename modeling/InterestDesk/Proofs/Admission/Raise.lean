import InterestDesk.Proofs.Admission.Run
import Mathlib.Data.List.Forall2
/-!
# Raise — a larger limit admits all that a smaller one does

Two limiters with the same window see the same checks, by a clock that never goes back.  The one with the larger limit
remembers more, and what it remembers in excess could turn a client away.  It does not: the excess grows only by a
check that the smaller limit rejects, and then the smaller limiter's list is full, so the excess stays within the
difference of the limits (`Covers.judge`).
-/
namespace InterestDesk

/-- The two logs are of the same checks, and each one admitted in `log` is admitted in `other`. -/
def Log.Within (log other : Log) : Prop :=
  List.Forall₂ (fun e e' => e.1 = e'.1 ∧ (e.2.allowed = true → e'.2.allowed = true)) log other

namespace Allowance

/-- `more` holds the times in `fewer`, in order, and in excess of them at most as many as the limits differ. -/
structure Covers (small large : Allowance) (fewer more : List Int) : Prop where
  sublist : fewer.Sublist more
  length_le : more.length + small.limit ≤ fewer.length + large.limit

variable {small large : Allowance}

theorem isLive_congr (hwindow : small.window = large.window) : small.isLive = large.isLive := by
  funext now t
  unfold isLive
  rw [hwindow]

theorem Covers.nil (hlimit : small.limit ≤ large.limit) : small.Covers large [] [] :=
  ⟨List.Sublist.slnil, Nat.add_le_add_left hlimit 0⟩

/-- Forgetting times by a rule forgets at least as many of the excess. -/
theorem Covers.filter {fewer more : List Int} (h : small.Covers large fewer more) (keep : Int → Bool) :
    small.Covers large (fewer.filter keep) (more.filter keep) := by
  refine ⟨h.sublist.filter keep, ?_⟩
  have hgone := (h.sublist.filter fun t => !keep t).length_le
  have hmore := List.length_eq_length_filter_add (l := more) keep
  have hfewer := List.length_eq_length_filter_add (l := fewer) keep
  have := h.length_le
  omega

/-- **One decision keeps the excess within the difference of the limits**, and admits what the smaller limit admits. -/
theorem Covers.judge {now : Int} {fewer more : List Int}
    (h : small.Covers large (fewer.filter (small.isLive now)) (more.filter (large.isLive now))) :
    ((small.judge now fewer).1.allowed = true → (large.judge now more).1.allowed = true) ∧
      small.Covers large (small.judge now fewer).2 (large.judge now more).2 := by
  have hlength := h.length_le
  rw [judge_times, judge_times]
  by_cases hs : (small.judge now fewer).1.allowed = true
  · have hl : (large.judge now more).1.allowed = true := by
      rw [judge_allowed_iff] at hs ⊢
      omega
    rw [if_pos hs, if_pos hl]
    refine ⟨fun _ => hl, h.sublist.append (List.Sublist.refl [now]), ?_⟩
    rw [List.length_append, List.length_append]
    omega
  · rw [if_neg hs, List.append_nil]
    refine ⟨fun hs' => absurd hs' hs, ?_⟩
    rw [judge_allowed_iff, Nat.not_lt] at hs
    by_cases hl : (large.judge now more).1.allowed = true
    -- The excess grows by this check, and the smaller limiter's list is full.
    · rw [if_pos hl]
      rw [judge_allowed_iff] at hl
      refine ⟨h.sublist.trans (List.sublist_append_left _ _), ?_⟩
      rw [List.length_append, List.length_singleton]
      omega
    · rw [if_neg hl, List.append_nil]
      exact h

end Allowance

namespace Limiter

/-- At `now`, the live times of each client under `large` cover those under `small`. -/
def CoveredBy (small large : Limiter) (now : Int) : Prop :=
  ∀ client, small.allowance.Covers large.allowance
    ((small.clients.times client).filter (small.allowance.isLive now))
    ((large.clients.times client).filter (large.allowance.isLive now))

theorem CoveredBy.later {small large : Limiter} {now later : Int}
    (hwindow : small.allowance.window = large.allowance.window) (h : small.CoveredBy large now) (hle : now ≤ later) :
    small.CoveredBy large later := by
  intro client
  have hc := (h client).filter (large.allowance.isLive later)
  rw [large.allowance.filter_live_of_le hle, ← Allowance.isLive_congr hwindow,
    small.allowance.filter_live_of_le hle] at hc
  rw [← Allowance.isLive_congr hwindow]
  exact hc

/-- **One check under both limits**: the larger one admits it if the smaller one does, and still covers it. -/
theorem CoveredBy.check {small large : Limiter} (hs : small.Tidy) (hl : large.Tidy)
    (hwindow : small.allowance.window = large.allowance.window) (x : Arrival) (h : small.CoveredBy large x.now) :
    ((small.check x.client x.now).1.allowed = true → (large.check x.client x.now).1.allowed = true) ∧
      (small.check x.client x.now).2.CoveredBy (large.check x.client x.now).2 x.now := by
  obtain ⟨hallowed, hcovers⟩ := (h x.client).judge
  rw [check_fst hs.distinct, check_fst hl.distinct]
  refine ⟨hallowed, fun client => ?_⟩
  rw [allowance_check, allowance_check]
  by_cases hc : client = x.client
  · subst hc
    rw [times_check_self hs.distinct, times_check_self hl.distinct, Allowance.isLive_congr hwindow]
    exact hcovers.filter _
  · rw [filter_times_check hs.distinct x (Int.le_refl _) client,
      filter_times_check hl.distinct x (Int.le_refl _) client, Log.admissions_singleton_of_ne hc,
      Log.admissions_singleton_of_ne hc, List.append_nil, List.append_nil]
    exact h client

theorem CoveredBy.log {small large : Limiter} (hs : small.Tidy) (hl : large.Tidy)
    (hwindow : small.allowance.window = large.allowance.window) {arrivals : List Arrival}
    (hmono : arrivals.Pairwise fun x y => x.now ≤ y.now) (h : ∀ x ∈ arrivals, small.CoveredBy large x.now) :
    (small.log arrivals).Within (large.log arrivals) := by
  induction arrivals generalizing small large with
  | nil => exact .nil
  | cons x rest ih =>
    rw [List.pairwise_cons] at hmono
    obtain ⟨hallowed, hnext⟩ := CoveredBy.check hs hl hwindow x (h x List.mem_cons_self)
    have hwindow' : (small.check x.client x.now).2.allowance.window =
        (large.check x.client x.now).2.allowance.window := by
      rw [allowance_check, allowance_check, hwindow]
    exact .cons ⟨rfl, hallowed⟩ (ih (hs.check _ _) (hl.check _ _) hwindow' hmono.2 fun y hy =>
      hnext.later hwindow' (hmono.1 y hy))

/-- **Raising the limit never hurts**: by a clock that never goes back, every check that a limiter admits is admitted
by one with the same window and a limit at least as large, however the two sweep. -/
theorem allowed_of_limit_le (small large : LimiterPlan) (hwindow : small.allowance.window = large.allowance.window)
    (hlimit : small.allowance.limit ≤ large.allowance.limit) {arrivals : List Arrival}
    (hmono : arrivals.Pairwise fun x y => x.now ≤ y.now) :
    ((ofPlan small).log arrivals).Within ((ofPlan large).log arrivals) :=
  CoveredBy.log (tidy_ofPlan small) (tidy_ofPlan large) hwindow hmono fun _ _ _ => Allowance.Covers.nil hlimit

/-- Limits of one and two in a window of ten: the larger one admits `a` at 9 as well, which blocks it at 11 and not at
10, where the smaller one admits it. -/
theorem allowed_of_limit_le_edges :
    let small : LimiterPlan := ⟨⟨1, 10⟩, 0, 0⟩
    let large : LimiterPlan := ⟨⟨2, 10⟩, 5, 3600⟩
    let arrivals : List Arrival := [⟨"a", 0⟩, ⟨"b", 3⟩, ⟨"a", 9⟩, ⟨"a", 10⟩, ⟨"a", 11⟩, ⟨"b", 12⟩, ⟨"a", 20⟩]
    ((ofPlan small).log arrivals).map (·.2.allowed) = [true, true, false, true, false, false, true] ∧
      ((ofPlan large).log arrivals).map (·.2.allowed) = [true, true, true, true, false, true, true] ∧
      ((ofPlan small).log arrivals).Within ((ofPlan large).log arrivals) :=
  ⟨by decide, by decide, allowed_of_limit_le ⟨⟨1, 10⟩, 0, 0⟩ ⟨⟨2, 10⟩, 5, 3600⟩ rfl (by decide) (by decide)⟩

end Limiter
end InterestDesk
