import InterestDesk.Proofs.Interest.Gains
/-!
# Range — when simple interest is refused as too large

Simple interest is refused exactly when one of its steps leaves the range of doubles (`Accrual.isFinite_simple_iff`):
the product of principal and rate, that product over the years, or the total.  The first two leave it before the
division by a hundred, so a request can be refused whose exact interest and total are both in the range.  Where they
do not, rounding moves the outcome by a few last places only (`Accrual.abs_interest_sub_le`), and the refusal follows
the exact total.
-/
namespace InterestDesk

open Binary64 (ofNat overflow unitsPerOne)

namespace Binary64

/-- The bounds on an exact result, in halves of the last place of the largest double: rounding can take an amount across
`overflow` only between the outer two. -/
theorem edges_eq : ∃ half : ℚ, 1 ≤ half ∧ overflow = (2 ^ 54 - 1) * half ∧
    (2 : ℚ) ^ 1024 - 2 ^ 974 = (2 ^ 54 - 16) * half ∧ (2 : ℚ) ^ 1024 + 2 ^ 974 = (2 ^ 54 + 16) * half := by
  have hfull : (2 : ℚ) ^ 1024 = 2 ^ 54 * 2 ^ 970 := pow_add 2 54 970
  have hedge : (2 : ℚ) ^ 974 = 16 * 2 ^ 970 := by
    rw [show (16 : ℚ) = 2 ^ 4 by norm_num]
    exact pow_add 2 4 970
  refine ⟨2 ^ 970, one_le_pow₀ one_le_two, ?_, ?_, ?_⟩
  · rw [overflow, hfull, sub_mul, one_mul]
  · rw [hfull, hedge, sub_mul]
  · rw [hfull, hedge, add_mul]

theorem overflow_le_unitsPerOne : overflow ≤ 2 * unitsPerOne := by
  obtain ⟨k, hk⟩ : ∃ k, k = 1074 := ⟨_, rfl⟩
  have hcast : (unitsPerOne : ℚ) = 2 ^ k := by
    rw [← twoTo_eq_unitsPerOne hk]
    exact Nat.cast_pow 2 k
  rw [hcast]
  calc overflow ≤ 2 ^ 1024 := sub_le_self _ (pow_pos two_pos 970).le
    _ ≤ 2 ^ k := pow_le_pow_right₀ one_le_two (by omega)
    _ ≤ 2 * 2 ^ k := le_mul_of_one_le_left (pow_pos two_pos k).le one_le_two

theorem Nonneg.leastUnits_le {x : Binary64} (hx : x.Nonneg) :
    x.value / (2 * unitsPerOne) ≤ 1 ∧ (x.value + 2) / (2 * unitsPerOne) ≤ 2 := by
  have hone : (1 : ℚ) ≤ unitsPerOne := by exact_mod_cast unitsPerOne_pos
  have hle := hx.value_lt_overflow.le.trans overflow_le_unitsPerOne
  constructor
  · exact div_le_one_of_le₀ hle (by linarith)
  · rw [div_le_iff₀ (by linarith)]
    linarith

/-- A rounded result, scaled, is off by the scaled error. -/
theorem Yields.abs_sub_mul_le {q c : ℚ} {v : Binary64} (h : Yields q v) (hlt : q < overflow) (hc : 0 ≤ c) :
    |q * c - v.value * c| ≤ q * c / 2 ^ 53 + c / (2 * unitsPerOne) := by
  calc |q * c - v.value * c| = |q - v.value| * c := by rw [← sub_mul, abs_mul, abs_of_nonneg hc]
    _ ≤ (q / 2 ^ 53 + 1 / (2 * unitsPerOne)) * c := mul_le_mul_of_nonneg_right (h.abs_sub_le hlt) hc
    _ = q * c / 2 ^ 53 + c / (2 * unitsPerOne) := by
      rw [add_mul, div_mul_eq_mul_div, div_mul_eq_mul_div, one_mul]

end Binary64

namespace Accrual

variable {principal rate years : Binary64}

/-- A step of simple interest leaves the range of doubles. -/
inductive LeavesRange (principal rate years : Binary64) : Prop
  | product (h : overflow ≤ principal.value * rate.value)
  | scaled (h : overflow ≤ (principal * rate).value * years.value)
  | total (h : overflow ≤ principal.value + (principal * rate * years / 100).value)

/-- **Simple interest is finite exactly when no step leaves the range.** -/
theorem isFinite_simple_iff (hp : principal.Nonneg) (hr : rate.Nonneg) (hy : years.Nonneg) :
    (simple principal rate years).isFinite = true ↔ ¬ LeavesRange principal rate years := by
  constructor
  · intro h hleaves
    obtain ⟨hinterest, htotal⟩ := (Accrual.isFinite_iff _).1 h
    have hsteps := simpleSteps_of_isFinite hp hr hy h
    have hscaled := Binary64.isFinite_of_div hinterest Binary64.hundred_spec.1.isFinite
    cases hleaves with
    | product hpast =>
      exact absurd (hsteps.product.isFinite_iff.1 (Binary64.isFinite_of_mul hscaled).1) (not_lt.2 hpast)
    | scaled hpast => exact absurd (hsteps.scaled.isFinite_iff.1 hscaled) (not_lt.2 hpast)
    | total hpast => exact absurd (hsteps.total.isFinite_iff.1 htotal) (not_lt.2 hpast)
  · intro h
    have hproduct := (hp.yields_mul hr).nonneg (not_le.1 fun hpast => h (.product hpast))
    have hscaled := (hproduct.yields_mul hy).nonneg (not_le.1 fun hpast => h (.scaled hpast))
    have hinterest := (yields_hundredth hscaled).nonneg (hundredth_lt_overflow hscaled)
    have htotal := (hp.yields_add hinterest).nonneg (not_le.1 fun hpast => h (.total hpast))
    exact (Accrual.isFinite_iff _).2 ⟨hinterest.isFinite, htotal.isFinite⟩

/-- **Simple interest is accurate**: while no product leaves the range, it is off by at most the `2^-51`th part of the
exact interest, and by half the least unit for each year and for two more. -/
theorem abs_interest_sub_le (hp : principal.Nonneg) (hr : rate.Nonneg) (hy : years.Nonneg)
    (hproduct : principal.value * rate.value < overflow) (hscaled : (principal * rate).value * years.value < overflow) :
    |principal.value * rate.value * years.value / 100 - (principal * rate * years / 100).value| ≤
      principal.value * rate.value * years.value / 100 / 2 ^ 51 + (years.value + 2) / (2 * unitsPerOne) := by
  have hproductYields := hp.yields_mul hr
  have hscaledYields := (hproductYields.nonneg hproduct).yields_mul hy
  have hscaledNonneg := hscaledYields.nonneg hscaled
  have hfirst := abs_le.1 (hproductYields.abs_sub_mul_le hproduct hy.value_nonneg)
  have hsecond := abs_le.1 (hscaledYields.abs_sub_le hscaled)
  have hthird := abs_le.1 ((yields_hundredth hscaledNonneg).abs_sub_le (hundredth_lt_overflow hscaledNonneg))
  have hexact := mul_nonneg (mul_nonneg hp.value_nonneg hr.value_nonneg) hy.value_nonneg
  have hunit : (0 : ℚ) ≤ 1 / (2 * unitsPerOne) := div_nonneg zero_le_one (by positivity)
  have hyears : (0 : ℚ) ≤ years.value / (2 * unitsPerOne) := div_nonneg hy.value_nonneg (by positivity)
  have hsplit : (years.value + 2) / (2 * unitsPerOne) =
      years.value / (2 * unitsPerOne) + 2 * (1 / (2 * unitsPerOne)) := by
    rw [add_div, mul_one_div]
  rw [hsplit, abs_le]
  -- Each of the three roundings adds a `2^-53`th part, and together they stay under four of them.
  constructor
  · linarith
  · linarith

/-- **Exact amounts inside the range are reached**, unless the product of principal and rate leaves it, or the product
with the years does before it is divided. -/
theorem not_leavesRange (hp : principal.Nonneg) (hr : rate.Nonneg) (hy : years.Nonneg)
    (hproduct : principal.value * rate.value < overflow)
    (hscaled : principal.value * rate.value * years.value < 2 ^ 1024 - 2 ^ 974)
    (htotal : principal.value + principal.value * rate.value * years.value / 100 < 2 ^ 1024 - 2 ^ 974) :
    ¬ LeavesRange principal rate years := by
  obtain ⟨half, hhalf, hoverflow, hlower, -⟩ := Binary64.edges_eq
  rw [hlower] at hscaled htotal
  clear hlower
  obtain ⟨hyears, hleast⟩ := hy.leastUnits_le
  have hstep : (principal * rate).value * years.value < overflow := by
    have hnear := abs_le.1 ((hp.yields_mul hr).abs_sub_mul_le hproduct hy.value_nonneg)
    rw [hoverflow]
    linarith only [hnear.1, hyears, hscaled, hhalf]
  have hnear := abs_le.1 (abs_interest_sub_le hp hr hy hproduct hstep)
  have hprincipal := hp.value_nonneg
  intro hleaves
  cases hleaves with
  | product hpast => exact absurd hproduct (not_lt.2 hpast)
  | scaled hpast => exact absurd hstep (not_lt.2 hpast)
  | total hpast =>
    rw [hoverflow] at hpast
    linarith

/-- **Exact amounts past the range are refused.** -/
theorem leavesRange_of_le (hp : principal.Nonneg) (hr : rate.Nonneg) (hy : years.Nonneg)
    (h : 2 ^ 1024 + 2 ^ 974 ≤ principal.value + principal.value * rate.value * years.value / 100) :
    LeavesRange principal rate years := by
  obtain ⟨half, hhalf, hoverflow, -, hupper⟩ := Binary64.edges_eq
  rw [hupper] at h
  clear hupper
  rcases lt_or_ge (principal.value * rate.value) overflow with hproduct | hpast
  · rcases lt_or_ge ((principal * rate).value * years.value) overflow with hscaled | hpast
    · have hnear := abs_le.1 (abs_interest_sub_le hp hr hy hproduct hscaled)
      have hleast := hy.leastUnits_le.2
      have hprincipal := hp.value_nonneg
      refine .total ?_
      rw [hoverflow]
      linarith
    · exact .scaled hpast
  · exact .product hpast

end Accrual

open Accrual (LeavesRange SimpleSteps)

/-- The interest of a request in exact arithmetic. -/
def Request.exactInterest (r : Request) : ℚ :=
  r.principal.value * r.rate.value * r.years.value / 100

/-- **When simple interest is too large.**  An accepted request for simple interest is refused exactly when a step
leaves the range of doubles, and for nothing else; a result went through every step, each rounded, and its interest is
accurate. An exact total past the range is refused.  One inside it is reached, if the product of principal and rate
and the exact interest before its division by a hundred are inside the range too. -/
theorem compute_simple_range {fields : Fields} {r : Request} (h : Request.ofFields fields = .ok r)
    (hsimple : r.interestType = .simple) :
    (r.principal.Nonneg ∧ r.rate.Nonneg ∧ r.years.Nonneg) ∧
      (∀ refusal, r.compute = .error refusal ↔
        refusal = .overflow ∧ LeavesRange r.principal r.rate r.years) ∧
      (∀ result, r.compute = .ok result → result.accrual = .simple r.principal r.rate r.years ∧
        SimpleSteps r.principal r.rate r.years ∧
        |r.exactInterest - result.accrual.interest.value| ≤
          r.exactInterest / 2 ^ 51 + (r.years.value + 2) / (2 * unitsPerOne)) ∧
      (2 ^ 1024 + 2 ^ 974 ≤ r.principal.value + r.exactInterest → r.compute = .error .overflow) ∧
      (r.principal.value * r.rate.value < overflow → 100 * r.exactInterest < 2 ^ 1024 - 2 ^ 974 →
        r.principal.value + r.exactInterest < 2 ^ 1024 - 2 ^ 974 → ∃ result, r.compute = .ok result) := by
  obtain ⟨hp, hr, hy⟩ := Request.nonneg_of_ofFields h
  have hfinite := Accrual.isFinite_simple_iff hp hr hy
  have hok : ¬ LeavesRange r.principal r.rate r.years →
      r.compute = .ok ⟨.simple, .simple r.principal r.rate r.years⟩ := by
    intro hstays
    rw [Request.compute_of_simple hsimple, if_pos (hfinite.2 hstays)]
  have herror : LeavesRange r.principal r.rate r.years → r.compute = .error .overflow := by
    intro hleaves
    rw [Request.compute_of_simple hsimple, if_neg fun hf => hfinite.1 hf hleaves]
  refine ⟨⟨hp, hr, hy⟩, fun refusal => ⟨fun hrefused => ?_, ?_⟩, fun result hresult => ?_, fun hpast => ?_,
    fun hproduct hscaled htotal => ?_⟩
  · by_cases hleaves : LeavesRange r.principal r.rate r.years
    · exact ⟨Except.error.inj (hrefused.symm.trans (herror hleaves)), hleaves⟩
    · rw [hok hleaves] at hrefused
      cases hrefused
  · rintro ⟨rfl, hleaves⟩
    exact herror hleaves
  · by_cases hleaves : LeavesRange r.principal r.rate r.years
    · rw [herror hleaves] at hresult
      cases hresult
    · rw [hok hleaves] at hresult
      cases hresult
      refine ⟨rfl, Accrual.simpleSteps_of_isFinite hp hr hy (hfinite.2 hleaves), ?_⟩
      exact Accrual.abs_interest_sub_le hp hr hy (not_le.1 fun hpast => hleaves (.product hpast))
        (not_le.1 fun hpast => hleaves (.scaled hpast))
  · exact herror (Accrual.leavesRange_of_le hp hr hy hpast)
  · refine ⟨_, hok (Accrual.not_leavesRange hp hr hy hproduct ?_ htotal)⟩
    rwa [Request.exactInterest, mul_div_cancel₀] at hscaled
    norm_num

/-- A form for simple interest over one year. -/
def Fields.forOneYear (principal rate : String) : Fields :=
  .firstOf [("principal", principal), ("rate", rate), ("time", "1"), ("time_unit", "Years"),
    ("interest_type", "simple")]

/-- The principal of a form that is just below half the range. -/
def halfRange : Binary64 :=
  .ofBits 0x7fdc7b1f3cac7433

theorem exists_request_of_forOneYear {principal rate : String} {p q : Binary64}
    (h : (fun r => (r.principal, r.rate, r.years, r.interestType)) <$> Request.ofFields (.forOneYear principal rate) =
      .ok (p, q, 1, .simple)) :
    ∃ r, Request.ofFields (.forOneYear principal rate) = .ok r ∧ r.interestType = .simple ∧ r.principal = p ∧
      r.rate = q ∧ r.years = 1 ∧ r.exactInterest = p.value * q.value / 100 := by
  cases hr : Request.ofFields (.forOneYear principal rate) with
  | error refusal =>
    rw [hr] at h
    cases h
  | ok r =>
    rw [hr] at h
    obtain ⟨hp, hq, hyears, htype⟩ : r.principal = p ∧ r.rate = q ∧ r.years = 1 ∧ r.interestType = .simple := by
      simpa only [Prod.mk.injEq] using Except.ok.inj h
    refine ⟨r, rfl, htype, hp, hq, hyears, ?_⟩
    rw [Request.exactInterest, hp, hq, hyears, Binary64.one_spec.2, mul_one]

theorem exists_request_of_halfRange :
    ∃ r, Request.ofFields (.forOneYear "8e307" "100") = .ok r ∧ r.interestType = .simple ∧ r.principal = halfRange ∧
      r.rate = 100 ∧ r.years = 1 ∧ r.exactInterest = halfRange.value := by
  have h : (fun r => (r.principal, r.rate, r.years, r.interestType)) <$>
      Request.ofFields (.forOneYear "8e307" "100") = .ok (halfRange, 100, 1, .simple) := by
    decide +kernel
  obtain ⟨r, hr, htype, hp, hq, hyears, hexact⟩ := exists_request_of_forOneYear h
  refine ⟨r, hr, htype, hp, hq, hyears, hexact.trans ?_⟩
  rw [Binary64.hundred_spec.2, mul_div_cancel_right₀]
  norm_num

/-- **A principal that doubles in a year is refused**, though its interest and its total are in the range: the product
with the rate is past it before the division by a hundred. -/
theorem simple_refused_in_range :
    ∃ r, Request.ofFields (.forOneYear "8e307" "100") = .ok r ∧ r.interestType = .simple ∧
      r.exactInterest < overflow ∧ r.principal.value + r.exactInterest < overflow ∧
      r.compute = .error .overflow := by
  obtain ⟨r, hr, htype, hp, hq, hyears, hexact⟩ := exists_request_of_halfRange
  have hhalf : halfRange.Nonneg := hp ▸ (Request.nonneg_of_ofFields hr).1
  refine ⟨r, hr, htype, ?_, ?_, ?_⟩
  · rw [hexact]
    exact hhalf.value_lt_overflow
  · rw [hexact, hp]
    exact (hhalf.yields_add hhalf).isFinite_iff.1 (by decide +kernel)
  · rw [Request.compute_of_simple htype, hp, hq, hyears]
    exact if_neg (by decide +kernel)

/-- Half the range at a hundred percent is refused for its first product, and a thousand at five percent is not. -/
theorem compute_simple_range_edges :
    (∃ r, Request.ofFields (.forOneYear "8e307" "100") = .ok r ∧ r.interestType = .simple ∧
        LeavesRange r.principal r.rate r.years ∧ r.compute = .error .overflow) ∧
      ∃ r, Request.ofFields (.forOneYear "1000" "5") = .ok r ∧ r.interestType = .simple ∧ r.exactInterest = 50 ∧
        ∃ result, r.compute = .ok result := by
  constructor
  · obtain ⟨r, hr, htype, hp, hq, -, -⟩ := exists_request_of_halfRange
    obtain ⟨⟨hprincipal, hrate, -⟩, herror, -⟩ := compute_simple_range hr htype
    have hproduct : ¬ (r.principal * r.rate).isFinite = true := by
      rw [hp, hq]
      decide +kernel
    have hleaves : LeavesRange r.principal r.rate r.years :=
      .product (not_lt.1 (mt (hprincipal.yields_mul hrate).isFinite_iff.2 hproduct))
    exact ⟨r, hr, htype, hleaves, (herror _).2 ⟨rfl, hleaves⟩⟩
  · have h : (fun r => (r.principal, r.rate, r.years, r.interestType)) <$>
        Request.ofFields (.forOneYear "1000" "5") = .ok (ofNat 1000, ofNat 5, 1, .simple) := by
      decide +kernel
    obtain ⟨r, hr, htype, hp, hq, -, hexact⟩ := exists_request_of_forOneYear h
    obtain ⟨half, hhalf, hoverflow, hlower, -⟩ := Binary64.edges_eq
    have hthousand := (Binary64.ofNat_spec (n := 1000) (by decide)).2
    have hfive := (Binary64.ofNat_spec (n := 5) (by decide)).2
    rw [hthousand, hfive] at hexact
    have hfifty : r.exactInterest = 50 := hexact.trans (by norm_num)
    obtain ⟨-, -, -, -, hinside⟩ := compute_simple_range hr htype
    refine ⟨r, hr, htype, hfifty, hinside ?_ ?_ ?_⟩
    · rw [hp, hq, hthousand, hfive, hoverflow]
      norm_num
      linarith only [hhalf]
    · rw [hfifty, hlower]
      linarith only [hhalf]
    · rw [hfifty, hp, hthousand, hlower]
      norm_num
      linarith only [hhalf]

end InterestDesk
