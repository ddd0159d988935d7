import InterestDesk.Proofs.Binary64.Growth
import InterestDesk.Proofs.Request.Disclosure
import InterestDesk.Proofs.Request.Precedence
/-!
# Gains — interest is never below zero

The numbers of an accepted request are finite and not below zero, and so is its time in years (`nonneg_toYears`).  With
such numbers both formulas gain, whenever their amounts are finite: simple interest adds a product to the principal, and
compound interest multiplies it by a growth of one or more (`Accrual.atLeastOne_growth`).  So no report shows a minus
sign that its style does not bring.
-/
namespace InterestDesk

open Binary64 (leadingBit ofNat Yields)

theorem Binary64.one_spec : (1 : Binary64).Nonneg ∧ (1 : Binary64).value = 1 := by
  have h := ofNat_spec (n := 1) (by decide)
  rw [Nat.cast_one] at h
  exact h

theorem Binary64.hundred_spec : (100 : Binary64).Nonneg ∧ (100 : Binary64).value = 100 := by
  have h := ofNat_spec (n := 100) (by decide)
  rw [Nat.cast_ofNat] at h
  exact h

/-- One of a unit is at most a year. -/
theorem TimeUnit.yearsFactor_spec (unit : TimeUnit) : unit.yearsFactor.Nonneg ∧ unit.yearsFactor.value ≤ 1 := by
  obtain ⟨hone, hvalue⟩ := Binary64.one_spec
  have hsmall : unit.perYear < 2 * leadingBit := by cases unit <;> decide
  have hpos : 1 ≤ unit.perYear := by cases unit <;> decide
  obtain ⟨hn, hnvalue⟩ := Binary64.ofNat_spec hsmall
  have hle : (1 : ℚ) ≤ unit.perYear := by exact_mod_cast hpos
  have hyields := hone.yields_div hn (by rw [hnvalue]; linarith)
  have hquotient : (1 : Binary64).value / (Binary64.ofNat unit.perYear).value ≤ (1 : Binary64).value := by
    rw [hnvalue, hvalue]
    exact div_le_one_of_le₀ hle (by linarith)
  refine ⟨hyields.nonneg (lt_of_le_of_lt hquotient hone.value_lt_overflow), ?_⟩
  have h := hyields.value_le hone hquotient
  rwa [hvalue] at h

/-- **A time is finite in years too.** -/
theorem nonneg_toYears {time : Binary64} (h : time.Nonneg) (label : String) : (toYears time label).Nonneg := by
  have hfactor : ∀ factor : Binary64, factor.Nonneg → factor.value ≤ 1 → (time * factor).Nonneg := by
    intro factor hfactor hle
    refine (h.yields_mul hfactor).nonneg (lt_of_le_of_lt ?_ h.value_lt_overflow)
    exact mul_le_of_le_one_right h.value_nonneg hle
  unfold toYears
  cases TimeUnit.ofLabel? label with
  | none =>
    rw [Option.elim_none]
    exact hfactor 1 Binary64.one_spec.1 Binary64.one_spec.2.le
  | some unit =>
    rw [Option.elim_some]
    exact hfactor _ unit.yearsFactor_spec.1 unit.yearsFactor_spec.2

theorem Fields.Holds.nonneg {fields : Fields} {name : String} {v : Binary64} (h : fields.Holds name v)
    (hlt : ¬ v < 0) : v.Nonneg := by
  obtain ⟨negative, m, rfl, hzero⟩ := h.exists_finite hlt
  exact .finite hzero

/-- The numbers of an accepted request. -/
theorem Request.nonneg_of_ofFields {fields : Fields} {r : Request} (h : ofFields fields = .ok r) :
    r.principal.Nonneg ∧ r.rate.Nonneg ∧ r.years.Nonneg := by
  have hr := (submitted_of_ofFields h).entry
  obtain ⟨hprincipal, hrate, htime⟩ : ¬ r.principal < 0 ∧ ¬ r.rate < 0 ∧ ¬ r.time < 0 := by
    simpa only [not_or, Request.entry] using hr.nonnegative
  exact ⟨hr.principal.nonneg hprincipal, hr.rate.nonneg hrate, nonneg_toYears (hr.time.nonneg htime) _⟩

namespace Accrual

/-- Whether an accrual is finite, its interest not below zero and its total not below the principal. -/
structure Gains (principal : Binary64) (a : Accrual) : Prop where
  interest : a.interest.Nonneg
  total : a.total.Nonneg
  principal_le : principal.value ≤ a.total.value

variable {principal rate years : Binary64}

/-- The steps of simple interest, each the exact result of its own operands, rounded. -/
structure SimpleSteps (principal rate years : Binary64) : Prop where
  product : Yields (principal.value * rate.value) (principal * rate)
  scaled : Yields ((principal * rate).value * years.value) (principal * rate * years)
  interest : Yields ((principal * rate * years).value / 100) (principal * rate * years / 100)
  total : Yields (principal.value + (principal * rate * years / 100).value)
    (principal + principal * rate * years / 100)

theorem yields_hundredth {x : Binary64} (hx : x.Nonneg) : Yields (x.value / 100) (x / 100) := by
  obtain ⟨hundred, hvalue⟩ := Binary64.hundred_spec
  have h := hx.yields_div hundred (by rw [hvalue]; norm_num)
  rwa [hvalue] at h

/-- Division by a hundred never leaves the range. -/
theorem hundredth_lt_overflow {x : Binary64} (hx : x.Nonneg) : x.value / 100 < Binary64.overflow :=
  lt_of_le_of_lt (div_le_self hx.value_nonneg (by norm_num)) hx.value_lt_overflow

/-- Amounts are finite only if every step before them is. -/
theorem simpleSteps_of_isFinite (hp : principal.Nonneg) (hr : rate.Nonneg) (hy : years.Nonneg)
    (h : (simple principal rate years).isFinite = true) : SimpleSteps principal rate years := by
  obtain ⟨hinterest, -⟩ := (Accrual.isFinite_iff _).1 h
  have hscaled := Binary64.isFinite_of_div hinterest Binary64.hundred_spec.1.isFinite
  have hproduct := hp.yields_mul hr
  have hscaledYields := (hproduct.nonneg_of_isFinite (Binary64.isFinite_of_mul hscaled).1).yields_mul hy
  have hinterestYields := yields_hundredth (hscaledYields.nonneg_of_isFinite hscaled)
  exact ⟨hproduct, hscaledYields, hinterestYields, hp.yields_add (hinterestYields.nonneg_of_isFinite hinterest)⟩

theorem gains_simple (hp : principal.Nonneg) (hr : rate.Nonneg) (hy : years.Nonneg)
    (h : (simple principal rate years).isFinite = true) : (simple principal rate years).Gains principal := by
  obtain ⟨hinterest, htotal⟩ := (Accrual.isFinite_iff _).1 h
  have hsteps := simpleSteps_of_isFinite hp hr hy h
  have hinterest := hsteps.interest.nonneg_of_isFinite hinterest
  refine ⟨hinterest, hsteps.total.nonneg_of_isFinite htotal, ?_⟩
  exact hsteps.total.le_value (hsteps.total.isFinite_iff.1 htotal) hp (le_add_of_nonneg_right hinterest.value_nonneg)

/-- **The principal never shrinks**: what it is multiplied by is one or more. -/
theorem atLeastOne_growth (hr : rate.Nonneg) (hy : years.Nonneg) (frequency : Frequency) :
    (growth rate years frequency).AtLeastOne := by
  obtain ⟨hone, honevalue⟩ := Binary64.one_spec
  have hpos : 1 ≤ frequency.periodsPerYear := by cases frequency <;> decide
  have hsmall : 100 * frequency.periodsPerYear < 2 * leadingBit := by cases frequency <;> decide
  have hperiods := (Binary64.ofNat_spec (n := frequency.periodsPerYear) (by omega)).1
  obtain ⟨hscale, hscalevalue⟩ := Binary64.ofNat_mul_spec (by decide) (by omega) hsmall
  have hle : (1 : ℚ) ≤ (100 * frequency.periodsPerYear : Nat) := by exact_mod_cast (show 1 ≤ 100 * _ by omega)
  have hquotient := hr.yields_div hscale (by rw [hscalevalue]; linarith)
  have hfinite : rate.value / (ofNat 100 * ofNat frequency.periodsPerYear).value ≤ rate.value := by
    rw [hscalevalue]
    exact div_le_self hr.value_nonneg hle
  have hpart := hquotient.nonneg (lt_of_le_of_lt hfinite hr.value_lt_overflow)
  have hbase := (hone.yields_add hpart).atLeastOne (by
    rw [honevalue]
    exact le_add_of_nonneg_right hpart.value_nonneg)
  exact hbase.pow (hperiods.yields_mul hy).atLeastZero

theorem gains_compounded (hp : principal.Nonneg) (hr : rate.Nonneg) (hy : years.Nonneg) {frequency : Frequency}
    (h : (compounded principal rate years frequency).isFinite = true) :
    (compounded principal rate years frequency).Gains principal := by
  obtain ⟨-, htotal⟩ := (Accrual.isFinite_iff _).1 h
  obtain ⟨hgrowth, hone⟩ := (atLeastOne_growth hr hy frequency).one_le_value (Binary64.isFinite_of_mul htotal).2
  have hproduct := hp.yields_mul hgrowth
  have hle := hproduct.le_value (hproduct.isFinite_iff.1 htotal) hp (le_mul_of_one_le_right hp.value_nonneg hone)
  have htotal := hproduct.nonneg_of_isFinite htotal
  have hdifference := htotal.yields_sub hp hle
  refine ⟨hdifference.nonneg (lt_of_le_of_lt ?_ htotal.value_lt_overflow), htotal, hle⟩
  exact sub_le_self _ hp.value_nonneg

end Accrual

/-- What a request comes to, if its amounts are finite. -/
theorem Request.gains_of_compute {fields : Fields} {r : Request} {result : Result} (h : ofFields fields = .ok r)
    (hresult : r.compute = .ok result) : result.accrual.Gains r.principal := by
  obtain ⟨hprincipal, hrate, hyears⟩ := nonneg_of_ofFields h
  cases htype : r.interestType with
  | simple =>
    rw [compute_of_simple htype] at hresult
    split at hresult
    · rename_i hfinite
      cases hresult
      exact Accrual.gains_simple hprincipal hrate hyears hfinite
    · cases hresult
  | compound =>
    rw [compute_of_compound htype] at hresult
    obtain ⟨frequency, -, hresult⟩ := eq_ok_of_bind hresult
    split at hresult
    · rename_i hfinite
      cases hresult
      exact Accrual.gains_compounded hprincipal hrate hyears hfinite
    · cases hresult

/-- A double that is not below zero is printed without a minus sign, a negative zero too. -/
theorem Decimal.minus_not_mem_formatGrouped {x : Binary64} (hx : x.Nonneg) {separator : Char}
    (hseparator : separator ≠ '-') (places : Nat) : '-' ∉ (formatGrouped x separator places).toList := by
  cases hx with
  | @finite negative m hzero =>
    have hsign : (negative && scaled m places != 0) = false := by
      cases negative with
      | false => rfl
      | true =>
        have hle : scaled m places ≤ 0 := by
          refine roundDiv_le_of_le_mul Binary64.unitsPerOne_pos ?_
          rw [hzero rfl, Nat.zero_mul, Nat.zero_mul]
        rw [Nat.eq_zero_of_le_zero hle]
        rfl
    unfold formatGrouped
    dsimp only
    rw [hsign, String.toList_ofList, if_neg Bool.false_ne_true, List.nil_append, List.mem_append, fraction_eq]
    rintro (hmem | hmem)
    -- Grouping adds separators only, so a minus sign would be a digit.
    · have hdigit : '-' ∈ (digits (scaled m places / tenTo places)).filter (· != separator) := by
        rw [← filter_grouped, List.mem_filter]
        exact ⟨hmem, bne_iff_ne.2 (Ne.symm hseparator)⟩
      cases isDigit_of_mem_digits (List.mem_filter.1 hdigit).1
    · split at hmem
      · cases hmem
      · rcases List.mem_cons.1 hmem with hpoint | hdigit
        · exact absurd hpoint (by decide)
        · cases isDigit_of_mem_fractionDigits hdigit

theorem Accrual.Gains.minus_not_mem_report {principal : Binary64} {accrual : Accrual} (h : accrual.Gains principal)
    {style : ReportStyle} (hseparator : style.separator ≠ '-') (hcurrency : '-' ∉ style.currency.toList)
    (hbreak : '-' ∉ style.lineBreak.toList) (interestType : InterestType) :
    '-' ∉ (style.report interestType accrual).toList := by
  have hinterest := Decimal.minus_not_mem_formatGrouped h.interest hseparator style.precision
  have htotal := Decimal.minus_not_mem_formatGrouped h.total hseparator style.precision
  have hheading : '-' ∉ interestType.heading.toList := by cases interestType <;> simp [InterestType.heading]
  unfold ReportStyle.report ReportStyle.amount
  simp [hinterest, htotal, hheading, hcurrency, hbreak]

/-- **Nothing is lost.**  Whatever a form asks for, simple or compound, in any unit and with any frequency: if it is
accepted and computed, then both amounts are finite, the interest is not below zero and the total not below the
principal.  So its report shows no minus sign, in any style that brings none. -/
theorem compute_gains {fields : Fields} {r : Request} {result : Result} (h : Request.ofFields fields = .ok r)
    (hresult : r.compute = .ok result) :
    result.accrual.isFinite = true ∧ 0 ≤ result.accrual.interest.value ∧
      r.principal.value ≤ result.accrual.total.value ∧
      ∀ style : ReportStyle, style.separator ≠ '-' → '-' ∉ style.currency.toList → '-' ∉ style.lineBreak.toList →
        '-' ∉ (result.render style).toList := by
  have hgains := Request.gains_of_compute h hresult
  refine ⟨?_, hgains.interest.value_nonneg, hgains.principal_le, fun style hseparator hcurrency hbreak => ?_⟩
  · exact (Accrual.isFinite_iff _).2 ⟨hgains.interest.isFinite, hgains.total.isFinite⟩
  · exact hgains.minus_not_mem_report hseparator hcurrency hbreak result.interestType

/-- A negative zero gains a zero, and is reported without its sign. -/
theorem compute_gains_negativeZero :
    let fields := Fields.firstOf [("principal", "-0"), ("rate", "5"), ("time", "2"), ("time_unit", "Years"),
      ("interest_type", "compound"), ("frequency", "Monthly")]
    ∃ r result, Request.ofFields fields = .ok r ∧ r.compute = .ok result ∧ r.principal = .zero true ∧
      0 ≤ result.accrual.interest.value ∧ r.principal.value ≤ result.accrual.total.value ∧
      '-' ∉ (result.render .plain).toList := by
  intro fields
  have htext : calculate fields .plain = .ok "Compound Interest: 0.00 INR\nTotal Amount: 0.00 INR" := by
    decide +kernel
  have hprincipal : (·.principal) <$> Request.ofFields fields = .ok (.zero true) := by decide +kernel
  obtain ⟨r, hr, h⟩ := eq_ok_of_bind htext
  obtain ⟨result, hresult, -⟩ := eq_ok_of_bind h
  rw [hr] at hprincipal
  obtain ⟨-, hinterest, htotal, hminus⟩ := compute_gains hr hresult
  exact ⟨r, result, hr, hresult, Except.ok.inj hprincipal, hinterest, htotal,
    hminus .plain (by decide) (by decide) (by decide)⟩

end InterestDesk
