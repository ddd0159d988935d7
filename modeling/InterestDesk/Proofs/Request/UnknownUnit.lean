import InterestDesk.Proofs.Request.Precedence
import Mathlib.Logic.Function.Basic
/-!
# UnknownUnit — times in a unit that is not known

A form with its time in an unknown unit and the same form with its time in years have the same entry but for the label
(`entry_timedIn`), and a request is computed from its years alone (`compute_timedIn`).  Between the two stands the
ceiling, which is looked at under the label of years only, so the forms differ exactly where the ceiling refuses the one
in years (`calculate_unknown_unit`).
-/
namespace InterestDesk

section Bind

variable {α β : Type} {x : Except Refusal α} {f g : α → Except Refusal β}

theorem bind_eq_of_ok {a : α} (h : x = .ok a) : x >>= f = f a := by
  rw [h]
  rfl

theorem bind_congr_of_ok (h : ∀ a, x = .ok a → f a = g a) : x >>= f = x >>= g := by
  cases x with
  | error refusal => rfl
  | ok a => exact h a rfl

end Bind

/-- The form with its time in the given unit. -/
def Fields.timedIn (fields : Fields) (label : String) : Fields :=
  Function.update fields "time_unit" (some label)

/-- The entry with its time in the given unit. -/
def Entry.timedIn (e : Entry) (label : String) : Entry :=
  { e with timeUnit := label }

namespace Fields

variable {fields : Fields} {label other : String}

theorem timedIn_unit : fields.timedIn label "time_unit" = some label :=
  Function.update_self _ _ _

theorem timedIn_of_ne {name : String} (h : name ≠ "time_unit") : fields.timedIn label name = fields name :=
  Function.update_of_ne h _ _

theorem timedIn_agreeBut : AgreeBut "time_unit" (fields.timedIn label) (fields.timedIn other) := by
  intro name h
  rw [timedIn_of_ne h, timedIn_of_ne h]

/-- Two forms that differ in the unit have the same entry but for its label. -/
theorem entry_timedIn (fields : Fields) (label other : String) :
    (fields.timedIn label).entry = (·.timedIn label) <$> (fields.timedIn other).entry := by
  have h : AgreeBut "time_unit" (fields.timedIn other) (fields.timedIn label) := timedIn_agreeBut
  have hunit : ∀ unit, (fields.timedIn unit).required "time_unit" = pure unit :=
    fun _ => required_eq_ok_iff.2 timedIn_unit
  unfold entry
  rw [h.number (by decide), h.number (by decide), h.number (by decide),
    h.required (show "interest_type" ≠ "time_unit" by decide), hunit, hunit]
  simp only [map_bind, pure_bind]
  refine bind_congr fun principal => bind_congr fun rate => bind_congr fun time => bind_congr fun type => ?_
  split
  · rfl
  · rfl

theorem timeUnit_of_entry {e : Entry} (h : (fields.timedIn label).entry = .ok e) : e.timeUnit = label :=
  Option.some_inj.1 ((entry_eq_ok_iff.1 h).timeUnit.symm.trans timedIn_unit)

end Fields

theorem TimeUnit.ofLabel?_eq_none {label : String} (h : ∀ unit : TimeUnit, label ≠ unit.label) :
    ofLabel? label = none := by
  cases hfound : ofLabel? label with
  | none => rfl
  | some unit => exact absurd (ofLabel?_eq_some_iff.1 hfound) (h unit)

theorem toYears_of_unknown {label : String} (h : ∀ unit : TimeUnit, label ≠ unit.label) (time : Binary64) :
    toYears time label = toYears time "Years" := by
  have hone : TimeUnit.yearsFactor .years = 1 := by decide +kernel
  have hyears : TimeUnit.ofLabel? "Years" = some .years := TimeUnit.ofLabel?_label .years
  unfold toYears
  rw [TimeUnit.ofLabel?_eq_none h, hyears]
  show time * 1 = time * TimeUnit.yearsFactor .years
  rw [hone]

/-- A request is computed from its time in years. -/
theorem Request.compute_congr (r : Request) {label : String} (h : toYears r.time label = r.years) :
    compute { r with timeUnit := label } = r.compute := by
  have hyears : years { r with timeUnit := label } = r.years := h
  unfold compute accrual
  rw [hyears]

theorem Check.Fails.of_timeTooLarge {fields : Fields} {check : Check} {maxYears : Binary64}
    (h : check.Fails fields (.timeTooLarge maxYears)) : check = .withinCeiling ∧ fields "time_unit" = some "Years" := by
  generalize hrefusal : Refusal.timeTooLarge maxYears = refusal at h
  cases h with
  | tooLong _ _ hunit => exact ⟨rfl, hunit⟩
  | _ => cases hrefusal

/-- Only the ceiling refuses a time. -/
theorem Follows.ne_timeTooLarge {α : Type} {fields : Fields} {checks : List Check} {x : Except Refusal α}
    (hx : Follows fields checks x) (hchecks : .withinCeiling ∉ checks) (maxYears : Binary64) :
    x ≠ .error (.timeTooLarge maxYears) := by
  intro h
  obtain ⟨check, hmem, hfails⟩ := ((hx.error_iff _).1 h).exists_fails
  rw [hfails.of_timeTooLarge.1] at hmem
  exact hchecks hmem

namespace Entry

/-- What is computed of an entry, whatever its time. -/
def compute (e : Entry) (frequency : String) : Except Refusal Result :=
  e.request frequency >>= Request.compute

theorem compute_timedIn {e : Entry} {label : String} (h : toYears e.time label = toYears e.time e.timeUnit)
    (frequency : String) : (e.timedIn label).compute frequency = e.compute frequency := by
  unfold compute request
  rw [bind_map_left, bind_map_left]
  exact bind_congr fun interestType => Request.compute_congr ⟨_, _, _, _, interestType, frequency⟩ h

theorem Submitted.compute_follows {fields : Fields} {e : Entry} (h : e.Submitted fields) :
    Follows fields [.knownType, .knownFrequency, .finite] (e.compute ((fields "frequency").getD "Annually")) :=
  (InterestType.ofLabel_follows h.interestType).map.bind fun _ hr => (Request.submitted_of_entry h hr).compute_follows

end Entry

namespace Request

variable {fields : Fields} {label : String}

/-- With its time in years, a form is computed unless the time is above the ceiling. -/
theorem compute_of_years (fields : Fields) :
    ofFields (fields.timedIn "Years") >>= compute = (fields.timedIn "Years").entry >>= fun e =>
      if maxTimeYears < e.time then .error (.timeTooLarge maxTimeYears)
      else e.compute ((fields "frequency").getD "Annually") := by
  rw [ofFields_eq, bind_assoc, Fields.timedIn_of_ne (show "frequency" ≠ "time_unit" by decide)]
  refine bind_congr_of_ok fun e hentry => ?_
  have hyears : TimeUnit.ofLabel? e.timeUnit = some .years :=
    TimeUnit.ofLabel?_eq_some_iff.2 (Fields.timeUnit_of_entry hentry)
  by_cases hlong : maxTimeYears < e.time
  · rw [if_pos hlong, if_pos ⟨hlong, hyears⟩]
    rfl
  · rw [if_neg hlong, if_neg (mt And.left hlong)]
    rfl

/-- With its time in an unknown unit, a form is computed whatever the time. -/
theorem compute_of_unknown (h : ∀ unit : TimeUnit, label ≠ unit.label) :
    ofFields (fields.timedIn label) >>= compute = (fields.timedIn "Years").entry >>= fun e =>
      e.compute ((fields "frequency").getD "Annually") := by
  rw [ofFields_eq, Fields.entry_timedIn fields label "Years", bind_map_left, bind_assoc,
    Fields.timedIn_of_ne (show "frequency" ≠ "time_unit" by decide)]
  refine bind_congr_of_ok fun e hentry => ?_
  have hpass : ¬ (maxTimeYears < (e.timedIn label).time ∧
      TimeUnit.ofLabel? (e.timedIn label).timeUnit = some .years) := by
    rintro ⟨-, hyears⟩
    exact h .years (TimeUnit.ofLabel?_eq_some_iff.1 hyears)
  rw [if_neg hpass]
  refine Entry.compute_timedIn ?_ _
  rw [Fields.timeUnit_of_entry hentry]
  exact toYears_of_unknown h e.time

/-- The ceiling refuses times in years only. -/
theorem compute_ne_timeTooLarge (h : fields "time_unit" ≠ some "Years") (maxYears : Binary64) :
    ofFields fields >>= compute ≠ .error (.timeTooLarge maxYears) := by
  intro hlong
  obtain ⟨check, -, hfails⟩ := (((follows fields).error_iff _).1 hlong).exists_fails
  exact h hfails.of_timeTooLarge.2

/-- With its time in years, a form is refused for its time exactly if its entry is read and the time is above the
ceiling. -/
theorem compute_of_years_eq_timeTooLarge_iff (fields : Fields) :
    ofFields (fields.timedIn "Years") >>= compute = .error (.timeTooLarge maxTimeYears) ↔
      ∃ e : Entry, e.Submitted (fields.timedIn "Years") ∧ maxTimeYears < e.time := by
  rw [compute_of_years]
  constructor
  · intro hyears
    cases hentry : (fields.timedIn "Years").entry with
    | error refusal =>
      rw [hentry] at hyears
      rw [Except.error.inj hyears] at hentry
      exact absurd hentry ((fields.timedIn "Years").entry_follows.ne_timeTooLarge (by simp [Check.inOrder]) _)
    | ok e =>
      have he := Fields.entry_eq_ok_iff.1 hentry
      rw [bind_eq_of_ok hentry] at hyears
      by_cases hlong : maxTimeYears < e.time
      · exact ⟨e, he, hlong⟩
      · rw [if_neg hlong] at hyears
        exact absurd hyears (he.compute_follows.ne_timeTooLarge (by simp) _)
  · rintro ⟨e, he, hlong⟩
    rw [bind_eq_of_ok (Fields.entry_eq_ok_iff.2 he), if_pos hlong]

end Request

theorem calculate_eq_error_iff {fields : Fields} {style : ReportStyle} {refusal : Refusal} :
    calculate fields style = .error refusal ↔ Request.ofFields fields >>= Request.compute = .error refusal := by
  rw [calculate_eq]
  cases Request.ofFields fields >>= Request.compute with
  | error cause => simp [Except.map]
  | ok result => simp [Except.map]

/-- **An unknown unit counts as years, but for the ceiling.**  A form with its time in an unknown unit comes to the same
as with its time in years unless the latter is refused for its time.  It is so refused exactly if its entry is read and
the time is above the ceiling, while the form in the unknown unit is computed of that many years whatever the time. -/
theorem calculate_unknown_unit (fields : Fields) (style : ReportStyle) {label : String}
    (h : ∀ unit : TimeUnit, label ≠ unit.label) :
    let unknown := calculate (fields.timedIn label) style
    let years := calculate (fields.timedIn "Years") style
    (unknown = years ↔ years ≠ .error (.timeTooLarge maxTimeYears)) ∧
      (years = .error (.timeTooLarge maxTimeYears) ↔
        ∃ e : Entry, e.Submitted (fields.timedIn "Years") ∧ maxTimeYears < e.time) ∧
      ∀ e : Entry, e.Submitted (fields.timedIn "Years") →
        unknown = (e.compute ((fields "frequency").getD "Annually")).map (·.render style) := by
  intro unknown years
  have hlong : years = .error (.timeTooLarge maxTimeYears) ↔
      ∃ e : Entry, e.Submitted (fields.timedIn "Years") ∧ maxTimeYears < e.time :=
    calculate_eq_error_iff.trans (Request.compute_of_years_eq_timeTooLarge_iff fields)
  have hunit : fields.timedIn label "time_unit" ≠ some "Years" := by
    rw [Fields.timedIn_unit]
    exact fun heq => h .years (Option.some_inj.1 heq)
  have hsame (hnone : ¬ ∃ e : Entry, e.Submitted (fields.timedIn "Years") ∧ maxTimeYears < e.time) :
      Request.ofFields (fields.timedIn label) >>= Request.compute =
        Request.ofFields (fields.timedIn "Years") >>= Request.compute := by
    rw [Request.compute_of_unknown h, Request.compute_of_years]
    refine bind_congr_of_ok fun e hentry => (if_neg fun hlong => hnone ?_).symm
    exact ⟨e, Fields.entry_eq_ok_iff.1 hentry, hlong⟩
  refine ⟨⟨?_, fun hpass => ?_⟩, hlong, fun e he => ?_⟩
  · intro heq hyears
    exact Request.compute_ne_timeTooLarge hunit _ (calculate_eq_error_iff.1 (heq.trans hyears))
  · show calculate _ style = calculate _ style
    rw [calculate_eq, calculate_eq, hsame (mt hlong.2 hpass)]
  · show calculate _ style = _
    rw [calculate_eq, Request.compute_of_unknown h, bind_eq_of_ok (Fields.entry_eq_ok_iff.2 he)]

theorem ne_label_fortnights (unit : TimeUnit) : "Fortnights" ≠ unit.label := by
  cases unit <;> decide

/-- Fortnights are no known unit: a thousand of them count as that many years, and so do a thousand and one, which are
refused in years. -/
theorem calculate_unknown_unit_fortnights :
    let fields time := Fields.firstOf [("principal", "100"), ("rate", "5"), ("time", time), ("interest_type", "simple")]
    let calculated time label := calculate ((fields time).timedIn label) .plain
    (∀ unit : TimeUnit, "Fortnights" ≠ unit.label) ∧
      calculated "1,000" "Fortnights" = calculated "1,000" "Years" ∧
      calculated "1,001" "Fortnights" ≠ calculated "1,001" "Years" := by
  intro fields calculated
  refine ⟨ne_label_fortnights, ?_, ?_⟩
  · exact (calculate_unknown_unit (fields "1,000") .plain ne_label_fortnights).1.2 (by decide +kernel)
  · intro heq
    exact (calculate_unknown_unit (fields "1,001") .plain ne_label_fortnights).1.1 heq (by decide +kernel)

/-- A thousand and one fortnights are computed as that many years, which are refused in years. -/
theorem calculate_overlong_fortnights :
    let fields := Fields.firstOf [("principal", "100"), ("rate", "5"), ("time", "1001"), ("interest_type", "simple")]
    (∀ unit : TimeUnit, "Fortnights" ≠ unit.label) ∧
      calculate (fields.timedIn "Fortnights") .plain =
        .ok "Simple Interest: 5,005.00 INR\nTotal Amount: 5,105.00 INR" ∧
      calculate (fields.timedIn "Years") .plain = .error (.timeTooLarge 1000) ∧
      calculate (fields.timedIn "Fortnights") .plain ≠ calculate (fields.timedIn "Years") .plain := by
  exact ⟨ne_label_fortnights, by decide +kernel, by decide +kernel, by decide +kernel⟩

end InterestDesk
