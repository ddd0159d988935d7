import InterestDesk.Request
/-!
# Faults — what a form can be refused for

`Fault` lists the refusals that reading and computing a form come to.  A missing field is one of the required ones, the
ceiling on years is the one of the library, and no form is refused as a request too many.  Each step of the
calculation is shown to refuse with nothing else, and the steps are put together by `RefusesOnly.bind`.
-/
namespace InterestDesk

/-- Every refusal of `x` satisfies `P`. -/
def RefusesOnly {α : Type} (P : Refusal → Prop) (x : Except Refusal α) : Prop :=
  ∀ refusal, x = .error refusal → P refusal

namespace RefusesOnly

variable {α β : Type} {P : Refusal → Prop}

theorem ok (a : α) : RefusesOnly P (.ok a) := by
  intro refusal h
  cases h

theorem error {refusal : Refusal} (h : P refusal) : RefusesOnly P (.error refusal : Except Refusal α) := by
  intro other hother
  cases hother
  exact h

/-- **Steps that refuse only for such causes do so one after the other.** -/
theorem bind {x : Except Refusal α} {f : α → Except Refusal β} (hx : RefusesOnly P x)
    (hf : ∀ a, RefusesOnly P (f a)) : RefusesOnly P (x >>= f) := by
  intro refusal h
  cases x with
  | error cause =>
    cases h
    exact hx _ rfl
  | ok a => exact hf a refusal h

end RefusesOnly

theorem eq_ok_of_bind {α β : Type} {x : Except Refusal α} {f : α → Except Refusal β} {b : β} (h : x >>= f = .ok b) :
    ∃ a, x = .ok a ∧ f a = .ok b := by
  cases x with
  | error cause => cases h
  | ok a => exact ⟨a, rfl, h⟩

/-- The fields that every form must have. -/
def Fields.requiredNames : List String :=
  ["principal", "rate", "time", "time_unit", "interest_type"]

/-- What can be wrong with a form. -/
inductive Fault : Refusal → Prop
  | invalidNumber (raw : String) : Fault (.invalidNumber raw)
  | missingField {name : String} (h : name ∈ Fields.requiredNames) : Fault (.missingField name)
  | negativeValue : Fault .negativeValue
  | timeTooLarge : Fault (.timeTooLarge maxTimeYears)
  | unknownInterestType : Fault .unknownInterestType
  | unknownFrequency : Fault .unknownFrequency
  | overflow : Fault .overflow

theorem readNumber_refuses (raw : String) : RefusesOnly Fault (readNumber raw) := by
  unfold readNumber
  split
  · exact .error (.invalidNumber raw)
  · split
    · exact .ok _
    · exact .error (.invalidNumber raw)

namespace Fields

theorem required_refuses (fields : Fields) {name : String} (h : name ∈ requiredNames) :
    RefusesOnly Fault (fields.required name) := by
  unfold required
  split
  · exact .ok _
  · exact .error (.missingField h)

theorem number_refuses (fields : Fields) {name : String} (h : name ∈ requiredNames) :
    RefusesOnly Fault (fields.number name) :=
  (fields.required_refuses h).bind readNumber_refuses

end Fields

theorem InterestType.ofLabel_refuses (label : String) : RefusesOnly Fault (InterestType.ofLabel label) := by
  unfold InterestType.ofLabel
  split
  · exact .ok _
  · exact .error .unknownInterestType

theorem Frequency.ofLabel_refuses (label : String) : RefusesOnly Fault (Frequency.ofLabel label) := by
  unfold Frequency.ofLabel
  split
  · exact .ok _
  · exact .error .unknownFrequency

theorem Accrual.compound_refuses (principal rate years : Binary64) (frequency : String) :
    RefusesOnly Fault (Accrual.compound principal rate years frequency) := by
  refine (Frequency.ofLabel_refuses frequency).bind fun frequency => ?_
  unfold Accrual.compoundWith
  dsimp only
  split
  · exact .ok _
  · exact .error .overflow

namespace Request

theorem ofFields_refuses (fields : Fields) : RefusesOnly Fault (ofFields fields) := by
  unfold ofFields
  refine (fields.number_refuses (by decide)).bind fun principal => ?_
  refine (fields.number_refuses (by decide)).bind fun rate => ?_
  refine (fields.number_refuses (by decide)).bind fun time => ?_
  refine (fields.required_refuses (by decide)).bind fun timeUnit => ?_
  refine (fields.required_refuses (by decide)).bind fun interestType => ?_
  dsimp only
  split
  · exact .error .negativeValue
  · split
    · exact .error .timeTooLarge
    · exact (InterestType.ofLabel_refuses interestType).bind fun _ => .ok _

theorem accrual_refuses (r : Request) : RefusesOnly Fault r.accrual := by
  unfold accrual
  split
  · exact .ok _
  · exact Accrual.compound_refuses r.principal r.rate r.years r.frequency

theorem compute_refuses (r : Request) : RefusesOnly Fault r.compute := by
  refine r.accrual_refuses.bind fun accrual => ?_
  split
  · exact .ok _
  · exact .error .overflow

/-- **Whatever is computed is finite**, in both amounts. -/
theorem isFinite_of_compute {r : Request} {result : Result} (h : r.compute = .ok result) :
    result.accrual.isFinite = true := by
  obtain ⟨accrual, -, hresult⟩ := eq_ok_of_bind h
  split at hresult
  · rename_i hfinite
    cases hresult
    exact hfinite
  · cases hresult

end Request

theorem calculate_refuses (fields : Fields) (style : ReportStyle) : RefusesOnly Fault (calculate fields style) :=
  (Request.ofFields_refuses fields).bind fun r => r.compute_refuses.bind fun _ => .ok _

/-- **A calculation that is not refused is the report on two finite amounts.** -/
theorem exists_accrual_of_calculate {fields : Fields} {style : ReportStyle} {text : String}
    (h : calculate fields style = .ok text) :
    ∃ (interestType : InterestType) (accrual : Accrual),
      accrual.isFinite = true ∧ text = style.report interestType accrual := by
  obtain ⟨r, -, hr⟩ := eq_ok_of_bind h
  obtain ⟨result, hresult, htext⟩ := eq_ok_of_bind hr
  cases htext
  exact ⟨result.interestType, result.accrual, Request.isFinite_of_compute hresult, rfl⟩

end InterestDesk
