import InterestDesk.Request
/-!
# Checks — what a form is checked for, and in which order

Each check on a form is described by itself, as if there were no other (`Check.Fails`), and `Check.inOrder` lists the
checks.  `Follows` says of one step of the calculation which checks it makes: it is refused for the first that fails and
goes through if none does.  Steps are put together by `Follows.bind`.
-/
namespace InterestDesk

/-- Whether a field is submitted and read as a number. -/
def Fields.Holds (fields : Fields) (name : String) (v : Binary64) : Prop :=
  ∃ raw, fields name = some raw ∧ readNumber raw = .ok v

/-- Both amounts of compound interest, finite or not. -/
def Accrual.compounded (principal rate years : Binary64) (frequency : Frequency) : Accrual :=
  ⟨principal * growth rate years frequency - principal, principal * growth rate years frequency⟩

/-- The amounts that a form asks for, finite or not. -/
inductive Fields.Accrues (fields : Fields) : Accrual → Prop
  | simple {principal rate time : Binary64} {unit : String} (hprincipal : fields.Holds "principal" principal)
      (hrate : fields.Holds "rate" rate) (htime : fields.Holds "time" time) (hunit : fields "time_unit" = some unit)
      (htype : fields "interest_type" = some "simple") :
      Accrues fields (.simple principal rate (toYears time unit))
  | compound {principal rate time : Binary64} {unit : String} {frequency : Frequency}
      (hprincipal : fields.Holds "principal" principal) (hrate : fields.Holds "rate" rate)
      (htime : fields.Holds "time" time) (hunit : fields "time_unit" = some unit)
      (htype : fields "interest_type" = some "compound")
      (hfrequency : (fields "frequency").getD "Annually" = frequency.label) :
      Accrues fields (.compounded principal rate (toYears time unit) frequency)

inductive Check where
  | present (name : String)
  | numeric (name : String)
  | nonnegative
  | withinCeiling
  | knownType
  | knownFrequency
  | finite

namespace Check

def inOrder : List Check :=
  [.present "principal", .numeric "principal", .present "rate", .numeric "rate", .present "time", .numeric "time",
    .present "time_unit", .present "interest_type", .nonnegative, .withinCeiling, .knownType, .knownFrequency, .finite]

/-- When a check fails, and what a form is then refused for. -/
inductive Fails (fields : Fields) : Check → Refusal → Prop
  | absent {name : String} (h : fields name = none) : Fails fields (.present name) (.missingField name)
  | unreadable {name raw : String} (h : fields name = some raw) (hread : ∀ v, readNumber raw ≠ .ok v) :
      Fails fields (.numeric name) (.invalidNumber raw)
  | negative {name : String} {v : Binary64} (hname : name ∈ ["principal", "rate", "time"]) (h : fields.Holds name v)
      (hlt : v < 0) : Fails fields .nonnegative .negativeValue
  | tooLong {time : Binary64} (h : fields.Holds "time" time) (hlong : 1000 < time)
      (hunit : fields "time_unit" = some "Years") : Fails fields .withinCeiling (.timeTooLarge 1000)
  | unknownType {label : String} (h : fields "interest_type" = some label) (hlabel : label ∉ ["simple", "compound"]) :
      Fails fields .knownType .unknownInterestType
  | unknownFrequency (h : fields "interest_type" = some "compound")
      (hlabel : (fields "frequency").getD "Annually" ∉ ["Annually", "Semi-Annually", "Quarterly", "Monthly"]) :
      Fails fields .knownFrequency .unknownFrequency
  | infinite {accrual : Accrual} (h : fields.Accrues accrual) (hinfinite : accrual.isFinite = false) :
      Fails fields .finite .overflow

theorem Fails.unique {fields : Fields} {check : Check} {refusal other : Refusal} (h : check.Fails fields refusal)
    (hother : check.Fails fields other) : refusal = other := by
  cases h with
  | unreadable h =>
    cases hother with
    | unreadable hother => rw [Option.some_inj.1 (h.symm.trans hother)]
  | _ => cases hother; rfl

/-- Whether a refusal is that of the first check of a list that fails. -/
inductive FirstFails (fields : Fields) : List Check → Refusal → Prop
  | here {check : Check} {rest : List Check} {refusal : Refusal} (h : check.Fails fields refusal) :
      FirstFails fields (check :: rest) refusal
  | later {check : Check} {rest : List Check} {refusal : Refusal} (hpass : ∀ other, ¬ check.Fails fields other)
      (h : FirstFails fields rest refusal) : FirstFails fields (check :: rest) refusal

theorem FirstFails.unique {fields : Fields} {checks : List Check} {refusal other : Refusal}
    (h : FirstFails fields checks refusal) (hother : FirstFails fields checks other) : refusal = other := by
  induction h with
  | here h =>
    cases hother with
    | here hother => exact h.unique hother
    | later hpass => exact absurd h (hpass _)
  | later hpass _ ih =>
    cases hother with
    | here hother => exact absurd hother (hpass _)
    | later _ hother => exact ih hother

theorem FirstFails.exists_fails {fields : Fields} {checks : List Check} {refusal : Refusal}
    (h : FirstFails fields checks refusal) : ∃ check ∈ checks, check.Fails fields refusal := by
  induction h with
  | here h => exact ⟨_, List.mem_cons_self, h⟩
  | later _ _ ih =>
    obtain ⟨check, hmem, hfails⟩ := ih
    exact ⟨check, List.mem_cons_of_mem _ hmem, hfails⟩

theorem FirstFails.append {fields : Fields} {checks : List Check} {refusal : Refusal}
    (h : FirstFails fields checks refusal) (rest : List Check) : FirstFails fields (checks ++ rest) refusal := by
  induction h with
  | here h => exact .here h
  | later hpass _ ih => exact .later hpass ih

theorem FirstFails.prepend {fields : Fields} {checks rest : List Check} {refusal : Refusal}
    (h : FirstFails fields rest refusal) (hpass : ∀ check ∈ checks, ∀ other, ¬ check.Fails fields other) :
    FirstFails fields (checks ++ rest) refusal := by
  induction checks with
  | nil => exact h
  | cons check checks ih =>
    rw [List.forall_mem_cons] at hpass
    exact .later hpass.1 (ih hpass.2)

end Check

open Check (FirstFails)

-- A predicate by cases, not a function of the outcome: matching one never evaluates the tests on numbers.
/-- Whether a step makes the given checks: it is refused for the first that fails, and goes through if none does. -/
inductive Follows {α : Type} (fields : Fields) (checks : List Check) : Except Refusal α → Prop
  | passes {a : α} (h : ∀ check ∈ checks, ∀ refusal, ¬ check.Fails fields refusal) : Follows fields checks (.ok a)
  | refuses {refusal : Refusal} (h : FirstFails fields checks refusal) : Follows fields checks (.error refusal)

namespace Follows

variable {α β : Type} {fields : Fields} {checks rest : List Check} {x : Except Refusal α}

theorem fails {check : Check} {refusal : Refusal} (h : check.Fails fields refusal) :
    Follows fields [check] (.error refusal : Except Refusal α) :=
  .refuses (.here h)

theorem holds {check : Check} {a : α} (h : ∀ refusal, ¬ check.Fails fields refusal) :
    Follows fields [check] (.ok a) :=
  .passes (List.forall_mem_singleton.2 h)

/-- **Steps make their checks one after the other.** -/
theorem bind {f : α → Except Refusal β} (hx : Follows fields checks x)
    (hf : ∀ a, x = .ok a → Follows fields rest (f a)) : Follows fields (checks ++ rest) (x >>= f) := by
  cases hx with
  | refuses h => exact .refuses (h.append rest)
  | @passes a h =>
    have hrest := hf a rfl
    show Follows fields (checks ++ rest) (f a)
    generalize f a = y at hrest ⊢
    cases hrest with
    | refuses hlater => exact .refuses (hlater.prepend h)
    | passes hlater => exact .passes (List.forall_mem_append.2 ⟨h, hlater⟩)

theorem skip {check : Check} (hpass : ∀ other, ¬ check.Fails fields other) (hx : Follows fields rest x) :
    Follows fields (check :: rest) x := by
  cases hx with
  | refuses h => exact .refuses (.later hpass h)
  | passes h => exact .passes (List.forall_mem_cons.2 ⟨hpass, h⟩)

theorem map {f : α → β} (hx : Follows fields checks x) : Follows fields checks (x.map f) := by
  cases hx with
  | refuses h => exact .refuses h
  | passes h => exact .passes h

/-- A test that refuses makes one check. -/
theorem guard {check : Check} {refusal : Refusal} {p : Prop} {_ : Decidable p} (hfails : p → check.Fails fields refusal)
    (hpass : ¬ p → ∀ other, ¬ check.Fails fields other) (hx : ¬ p → Follows fields rest x) :
    Follows fields (check :: rest) (if p then .error refusal else x) := by
  by_cases hp : p
  · rw [if_pos hp]
    exact .refuses (.here (hfails hp))
  · rw [if_neg hp]
    exact (hx hp).skip (hpass hp)

theorem error_iff (hx : Follows fields checks x) (refusal : Refusal) :
    x = .error refusal ↔ FirstFails fields checks refusal := by
  cases hx with
  | refuses hfirst =>
    constructor
    · rintro ⟨⟩
      exact hfirst
    · intro h
      rw [hfirst.unique h]
  | passes hall =>
    constructor
    · rintro ⟨⟩
    · intro h
      obtain ⟨check, hmem, hfails⟩ := h.exists_fails
      exact absurd hfails (hall check hmem refusal)

theorem ok_iff (hx : Follows fields checks x) :
    (∃ a, x = .ok a) ↔ ∀ check ∈ checks, ∀ refusal, ¬ check.Fails fields refusal := by
  cases hx with
  | @passes a hall => exact ⟨fun _ => hall, fun _ => ⟨a, rfl⟩⟩
  | refuses hfirst =>
    obtain ⟨check, hmem, hfails⟩ := hfirst.exists_fails
    constructor
    · rintro ⟨a, ⟨⟩⟩
    · intro h
      exact absurd hfails (h check hmem _)

end Follows

end InterestDesk
