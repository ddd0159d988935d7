import InterestDesk.Proofs.Binary64.Nearest
import InterestDesk.Proofs.Request.Checks
import InterestDesk.Proofs.Request.Faults
import InterestDesk.Proofs.Request.Numbers
/-!
# Precedence — which fault of a form is reported

Every step of the calculation makes its checks in order: the required fields (`Fields.entry_follows`), the ceiling and
the interest type (`Request.ofFields_follows`), then the frequency and the amounts
(`Request.Submitted.compute_follows`). So a form is refused for the first check in the whole list that fails and goes
through if none does (`calculate_precedence`).
-/
namespace InterestDesk

open Check (FirstFails)

namespace Fields

theorem required_follows (fields : Fields) (name : String) :
    Follows fields [.present name] (fields.required name) := by
  unfold required
  cases h : fields name with
  | none => exact .fails (.absent h)
  | some value =>
    refine .holds fun refusal hfails => ?_
    cases hfails with
    | absent hnone =>
      rw [h] at hnone
      cases hnone

theorem required_eq_ok_iff {fields : Fields} {name value : String} :
    fields.required name = .ok value ↔ fields name = some value := by
  unfold required
  cases h : fields name <;> simp

theorem readNumber_follows {fields : Fields} {name raw : String} (h : fields name = some raw) :
    Follows fields [.numeric name] (readNumber raw) := by
  cases hread : readNumber raw with
  | ok v =>
    refine .holds fun refusal hfails => ?_
    cases hfails with
    | unreadable hsome hnone =>
      cases Option.some_inj.1 (h.symm.trans hsome)
      exact hnone v hread
  | error refusal =>
    rw [(readNumber_eq_error_iff.1 hread).1]
    refine .fails (.unreadable h fun v hv => ?_)
    rw [hread] at hv
    cases hv

theorem number_follows (fields : Fields) (name : String) :
    Follows fields [.present name, .numeric name] (fields.number name) :=
  (fields.required_follows name).bind fun _ h => readNumber_follows (required_eq_ok_iff.1 h)

theorem number_eq_ok_iff {fields : Fields} {name : String} {v : Binary64} :
    fields.number name = .ok v ↔ fields.Holds name v := by
  constructor
  · intro h
    obtain ⟨raw, hraw, hread⟩ := eq_ok_of_bind h
    exact ⟨raw, required_eq_ok_iff.1 hraw, hread⟩
  · rintro ⟨raw, hraw, hread⟩
    unfold number
    rw [required_eq_ok_iff.2 hraw]
    exact hread

theorem Holds.exists_finite {fields : Fields} {name : String} {v : Binary64} (h : fields.Holds name v) (hlt : ¬ v < 0) :
    ∃ negative m, v = .finite negative m ∧ (negative = true → m.units = 0) := by
  obtain ⟨raw, -, hread⟩ := h
  have hfinite := (readNumber_eq_ok_iff.1 hread).1
  cases v with
  | finite negative m =>
    rw [Binary64.finite_lt_zero_iff, not_and_not_right] at hlt
    exact ⟨negative, m, rfl, hlt⟩
  | _ => cases hfinite

theorem Holds.unique {fields : Fields} {name : String} {v w : Binary64} (hv : fields.Holds name v)
    (hw : fields.Holds name w) : v = w := by
  have h := (number_eq_ok_iff.2 hv).symm.trans (number_eq_ok_iff.2 hw)
  cases h
  rfl

end Fields

section Labels

variable {α : Type} {members : List α} {label : α → String} {text : String}

theorem label_eq_of_find? {a : α} (h : members.find? (label · == text) = some a) : text = label a := by
  have hlabel := List.find?_some h
  exact (beq_iff_eq.1 hlabel).symm

theorem label_mem_of_find? {a : α} (h : members.find? (label · == text) = some a) : text ∈ members.map label :=
  List.mem_map.2 ⟨a, List.mem_of_find?_eq_some h, (label_eq_of_find? h).symm⟩

theorem label_not_mem_of_find? (h : members.find? (label · == text) = none) : text ∉ members.map label := by
  simpa using h

end Labels

theorem TimeUnit.ofLabel?_eq_some_iff {label : String} {unit : TimeUnit} :
    ofLabel? label = some unit ↔ label = unit.label := by
  constructor
  · exact label_eq_of_find?
  · rintro rfl
    exact ofLabel?_label unit

theorem InterestType.ofLabel_eq_ok_iff {label : String} {interestType : InterestType} :
    ofLabel label = .ok interestType ↔ label = interestType.label := by
  constructor
  · intro h
    unfold ofLabel at h
    split at h
    · rename_i found hfound
      cases h
      exact label_eq_of_find? hfound
    · cases h
  · rintro rfl
    exact ofLabel_label interestType

theorem InterestType.ofLabel_follows {fields : Fields} {label : String} (h : fields "interest_type" = some label) :
    Follows fields [.knownType] (ofLabel label) := by
  unfold ofLabel
  cases hfound : all.find? (·.label == label) with
  | none => exact .fails (.unknownType h (label_not_mem_of_find? hfound))
  | some found =>
    have hmem := label_mem_of_find? hfound
    refine .holds fun refusal hfails => ?_
    cases hfails with
    | unknownType hother hlabel =>
      rw [Option.some_inj.1 (h.symm.trans hother)] at hmem
      exact hlabel hmem

theorem Frequency.ofLabel_eq_ok_iff {label : String} {frequency : Frequency} :
    ofLabel label = .ok frequency ↔ label = frequency.label := by
  constructor
  · intro h
    unfold ofLabel at h
    split at h
    · rename_i found hfound
      cases h
      exact label_eq_of_find? hfound
    · cases h
  · rintro rfl
    exact ofLabel_label frequency

theorem Frequency.ofLabel_follows {fields : Fields} (h : fields "interest_type" = some "compound") :
    Follows fields [.knownFrequency] (ofLabel ((fields "frequency").getD "Annually")) := by
  unfold ofLabel
  cases hfound : all.find? (·.label == (fields "frequency").getD "Annually") with
  | none => exact .fails (.unknownFrequency h (label_not_mem_of_find? hfound))
  | some found =>
    have hmem := label_mem_of_find? hfound
    refine .holds fun refusal hfails => ?_
    cases hfails with
    | unknownFrequency _ hlabel => exact hlabel hmem

theorem Frequency.eq_of_label_eq {frequency other : Frequency} (h : frequency.label = other.label) :
    frequency = other := by
  have hlabels := ofLabel_label frequency
  rw [h, ofLabel_label] at hlabels
  cases hlabels
  rfl

theorem Fields.Accrues.unique {fields : Fields} {accrual other : Accrual} (h : fields.Accrues accrual)
    (hother : fields.Accrues other) : accrual = other := by
  cases h with
  | simple hprincipal hrate htime hunit htype =>
    cases hother with
    | simple hprincipal' hrate' htime' hunit' htype' =>
      rw [hprincipal.unique hprincipal', hrate.unique hrate', htime.unique htime',
        Option.some_inj.1 (hunit.symm.trans hunit')]
    | compound _ _ _ _ htype' =>
      rw [htype] at htype'
      simp at htype'
  | compound hprincipal hrate htime hunit htype hfrequency =>
    cases hother with
    | simple _ _ _ _ htype' =>
      rw [htype] at htype'
      simp at htype'
    | compound hprincipal' hrate' htime' hunit' htype' hfrequency' =>
      rw [hprincipal.unique hprincipal', hrate.unique hrate', htime.unique htime',
        Option.some_inj.1 (hunit.symm.trans hunit'), Frequency.eq_of_label_eq (hfrequency.symm.trans hfrequency')]

theorem Fields.Accrues.follows {fields : Fields} {accrual : Accrual} (h : fields.Accrues accrual) {α : Type} (a : α) :
    Follows fields [.finite] (if accrual.isFinite then .ok a else .error .overflow) := by
  by_cases hfinite : accrual.isFinite
  · rw [if_pos hfinite]
    refine .holds fun refusal hfails => ?_
    cases hfails with
    | infinite hother hinfinite =>
      rw [h.unique hother, hinfinite] at hfinite
      cases hfinite
  · rw [if_neg hfinite]
    exact .fails (.infinite h (Bool.eq_false_iff.2 hfinite))

theorem Accrual.compoundWith_eq (principal rate years : Binary64) (frequency : Frequency) :
    compoundWith principal rate years frequency =
      if (compounded principal rate years frequency).total.isFinite then .ok (compounded principal rate years frequency)
      else .error .overflow :=
  rfl

/-- The required fields of a form, the interest type by its label. -/
structure Entry where
  principal : Binary64
  rate : Binary64
  time : Binary64
  timeUnit : String
  interestType : String

/-- Whether a form holds the numbers and labels of an entry, and no number is below zero. -/
structure Entry.Submitted (e : Entry) (fields : Fields) : Prop where
  principal : fields.Holds "principal" e.principal
  rate : fields.Holds "rate" e.rate
  time : fields.Holds "time" e.time
  timeUnit : fields "time_unit" = some e.timeUnit
  interestType : fields "interest_type" = some e.interestType
  nonnegative : ¬ (e.principal < 0 ∨ e.rate < 0 ∨ e.time < 0)

/-- The request of an entry, whatever its time. -/
def Entry.request (e : Entry) (frequency : String) : Except Refusal Request :=
  (fun interestType => ⟨e.principal, e.rate, e.time, e.timeUnit, interestType, frequency⟩) <$>
    InterestType.ofLabel e.interestType

namespace Fields

/-- Reads the required fields; refused when a number is below zero. -/
def entry (fields : Fields) : Except Refusal Entry := do
  let principal ← fields.number "principal"
  let rate ← fields.number "rate"
  let time ← fields.number "time"
  let timeUnit ← fields.required "time_unit"
  let interestType ← fields.required "interest_type"
  if principal < 0 ∨ rate < 0 ∨ time < 0 then throw .negativeValue
  return ⟨principal, rate, time, timeUnit, interestType⟩

theorem entry_eq_ok_iff {fields : Fields} {e : Entry} : fields.entry = .ok e ↔ e.Submitted fields := by
  constructor
  · intro h
    obtain ⟨principal, hprincipal, h⟩ := eq_ok_of_bind h
    obtain ⟨rate, hrate, h⟩ := eq_ok_of_bind h
    obtain ⟨time, htime, h⟩ := eq_ok_of_bind h
    obtain ⟨unit, hunit, h⟩ := eq_ok_of_bind h
    obtain ⟨label, hlabel, h⟩ := eq_ok_of_bind h
    split at h
    · cases h
    · rename_i hnonnegative
      cases h
      exact ⟨number_eq_ok_iff.1 hprincipal, number_eq_ok_iff.1 hrate, number_eq_ok_iff.1 htime,
        required_eq_ok_iff.1 hunit, required_eq_ok_iff.1 hlabel, hnonnegative⟩
  · intro h
    unfold entry
    rw [number_eq_ok_iff.2 h.principal, number_eq_ok_iff.2 h.rate, number_eq_ok_iff.2 h.time,
      required_eq_ok_iff.2 h.timeUnit, required_eq_ok_iff.2 h.interestType]
    exact if_neg h.nonnegative

/-- The checks on the required fields. -/
theorem entry_follows (fields : Fields) : Follows fields (Check.inOrder.take 9) fields.entry := by
  refine (fields.number_follows "principal").bind fun principal hprincipal => ?_
  refine (fields.number_follows "rate").bind fun rate hrate => ?_
  refine (fields.number_follows "time").bind fun time htime => ?_
  refine (fields.required_follows "time_unit").bind fun unit _ => ?_
  refine (fields.required_follows "interest_type").bind fun label _ => ?_
  rw [number_eq_ok_iff] at hprincipal hrate htime
  refine Follows.guard ?_ ?_ fun _ => .passes (List.forall_mem_nil _)
  · rintro (hlt | hlt | hlt)
    · exact .negative (by decide) hprincipal hlt
    · exact .negative (by decide) hrate hlt
    · exact .negative (by decide) htime hlt
  · intro hpass refusal hfails
    cases hfails with
    | negative hname h hlt =>
      simp only [List.mem_cons, List.not_mem_nil, or_false] at hname
      rcases hname with rfl | rfl | rfl
      · exact hpass (.inl (h.unique hprincipal ▸ hlt))
      · exact hpass (.inr (.inl (h.unique hrate ▸ hlt)))
      · exact hpass (.inr (.inr (h.unique htime ▸ hlt)))

/-- Whether two forms are the same but for one field. -/
def AgreeBut (name : String) (fields others : Fields) : Prop :=
  ∀ other ≠ name, others other = fields other

namespace AgreeBut

variable {name other : String} {fields others : Fields}

theorem required (h : AgreeBut name fields others) (hother : other ≠ name) :
    others.required other = fields.required other := by
  unfold Fields.required
  rw [h other hother]

theorem number (h : AgreeBut name fields others) (hother : other ≠ name) :
    others.number other = fields.number other := by
  unfold Fields.number
  rw [h.required hother]

end AgreeBut
end Fields

namespace Request

/-- The ceiling on years stands between the entry of a form and its request. -/
theorem ofFields_eq (fields : Fields) :
    ofFields fields = fields.entry >>= fun e =>
      if maxTimeYears < e.time ∧ TimeUnit.ofLabel? e.timeUnit = some .years then .error (.timeTooLarge maxTimeYears)
      else e.request ((fields "frequency").getD "Annually") := by
  unfold ofFields Fields.entry
  simp only [bind_assoc]
  refine bind_congr fun principal => bind_congr fun rate => bind_congr fun time => bind_congr fun unit =>
    bind_congr fun label => ?_
  split
  · rfl
  · rw [pure_bind]
    by_cases hlong : maxTimeYears < time ∧ TimeUnit.ofLabel? unit = some .years
    · rw [if_pos hlong, if_pos hlong]
      rfl
    · rw [if_neg hlong, if_neg hlong]
      rfl

/-- The checks that reading a request makes. -/
theorem ofFields_follows (fields : Fields) : Follows fields (Check.inOrder.take 11) (ofFields fields) := by
  rw [ofFields_eq]
  refine fields.entry_follows.bind fun e he => ?_
  rw [Fields.entry_eq_ok_iff] at he
  refine Follows.guard ?_ ?_ fun _ => (InterestType.ofLabel_follows he.interestType).map
  · rintro ⟨hlong, hyears⟩
    have hunit := he.timeUnit
    rw [TimeUnit.ofLabel?_eq_some_iff.1 hyears] at hunit
    exact .tooLong he.time hlong hunit
  · intro hpass refusal hfails
    cases hfails with
    | tooLong h hlong hyears =>
      have hunit := Option.some_inj.1 (he.timeUnit.symm.trans hyears)
      exact hpass ⟨h.unique he.time ▸ hlong, TimeUnit.ofLabel?_eq_some_iff.2 hunit⟩

/-- The required fields of a request. -/
def entry (r : Request) : Entry :=
  ⟨r.principal, r.rate, r.time, r.timeUnit, r.interestType.label⟩

/-- What an accepted request holds: an entry of its form, and the frequency as submitted. -/
structure Submitted (r : Request) (fields : Fields) : Prop where
  entry : r.entry.Submitted fields
  frequency : r.frequency = (fields "frequency").getD "Annually"

theorem submitted_of_entry {fields : Fields} {e : Entry} (he : e.Submitted fields) {r : Request}
    (h : e.request ((fields "frequency").getD "Annually") = .ok r) : r.Submitted fields := by
  unfold Entry.request at h
  cases htype : InterestType.ofLabel e.interestType with
  | error refusal =>
    rw [htype] at h
    cases h
  | ok interestType =>
    rw [htype] at h
    cases h
    have hlabel := he.interestType
    rw [InterestType.ofLabel_eq_ok_iff.1 htype] at hlabel
    exact ⟨⟨he.principal, he.rate, he.time, he.timeUnit, hlabel, he.nonnegative⟩, rfl⟩

theorem submitted_of_ofFields {fields : Fields} {r : Request} (h : ofFields fields = .ok r) : r.Submitted fields := by
  rw [ofFields_eq] at h
  obtain ⟨e, he, h⟩ := eq_ok_of_bind h
  split at h
  · cases h
  · exact submitted_of_entry (Fields.entry_eq_ok_iff.1 he) h

theorem compute_of_simple {r : Request} (h : r.interestType = .simple) :
    r.compute =
      if (Accrual.simple r.principal r.rate r.years).isFinite then
        .ok ⟨.simple, Accrual.simple r.principal r.rate r.years⟩
      else .error .overflow := by
  unfold compute accrual
  rw [h]
  rfl

theorem compute_of_compound {r : Request} (h : r.interestType = .compound) :
    r.compute = Frequency.ofLabel r.frequency >>= fun frequency =>
      if (Accrual.compounded r.principal r.rate r.years frequency).isFinite then
        .ok ⟨.compound, Accrual.compounded r.principal r.rate r.years frequency⟩
      else .error .overflow := by
  unfold compute accrual
  rw [h]
  unfold Accrual.compound
  cases Frequency.ofLabel r.frequency with
  | error refusal => rfl
  | ok frequency =>
    show (Accrual.compoundWith r.principal r.rate r.years frequency >>= _) = _
    rw [Accrual.compoundWith_eq]
    by_cases htotal : (Accrual.compounded r.principal r.rate r.years frequency).total.isFinite
    · rw [if_pos htotal]
      rfl
    -- A total that is not finite is refused before the interest is looked at.
    · have hfinite : ¬ (Accrual.compounded r.principal r.rate r.years frequency).isFinite := by
        simp [Accrual.isFinite, htotal]
      rw [if_neg htotal]
      exact (if_neg hfinite).symm

/-- The checks that computing makes after the request is read. -/
theorem Submitted.compute_follows {fields : Fields} {r : Request} (h : r.Submitted fields) :
    Follows fields [.knownFrequency, .finite] r.compute := by
  have hlabel := h.entry.interestType
  cases htype : r.interestType with
  | simple =>
    rw [Request.entry, htype] at hlabel
    rw [compute_of_simple htype]
    refine .skip ?_ (Fields.Accrues.follows ?_ _)
    · intro refusal hfails
      cases hfails with
      | unknownFrequency hcompound =>
        rw [hlabel] at hcompound
        simp [InterestType.label] at hcompound
    · exact .simple h.entry.principal h.entry.rate h.entry.time h.entry.timeUnit hlabel
  | compound =>
    rw [Request.entry, htype] at hlabel
    rw [compute_of_compound htype, h.frequency]
    refine (Frequency.ofLabel_follows hlabel).bind fun frequency hfrequency => Fields.Accrues.follows ?_ _
    exact .compound h.entry.principal h.entry.rate h.entry.time h.entry.timeUnit hlabel
      (Frequency.ofLabel_eq_ok_iff.1 hfrequency)

/-- The frequency is kept and not looked at. -/
theorem ofFields_of_agreeBut {fields others : Fields} (h : fields.AgreeBut "frequency" others) :
    ofFields others =
      (fun r => { r with frequency := (others "frequency").getD "Annually" }) <$> ofFields fields := by
  have hentry : others.entry = fields.entry := by
    unfold Fields.entry
    rw [h.number (by decide), h.number (by decide), h.number (by decide), h.required (by decide),
      h.required (by decide)]
  rw [ofFields_eq, ofFields_eq, hentry, map_bind]
  refine bind_congr fun e => ?_
  split
  · rfl
  · unfold Entry.request
    rw [← comp_map]
    rfl

/-- A calculation makes its checks in order. -/
theorem follows (fields : Fields) : Follows fields Check.inOrder (ofFields fields >>= compute) :=
  (ofFields_follows fields).bind fun _ h => (submitted_of_ofFields h).compute_follows

end Request

theorem calculate_eq (fields : Fields) (style : ReportStyle) :
    calculate fields style = (Request.ofFields fields >>= Request.compute).map (·.render style) := by
  unfold calculate
  cases Request.ofFields fields with
  | error refusal => rfl
  | ok r => rfl

/-- **The first fault counts.**  A form is refused exactly for the first check in order that fails, goes through exactly
if none does, and is reported on if it goes through.  An accepted request holds finite numbers, none below zero, and its
labels as submitted.  With simple interest the frequency changes nothing. -/
theorem calculate_precedence (fields : Fields) :
    (∀ refusal, Request.ofFields fields >>= Request.compute = .error refusal ↔
        FirstFails fields Check.inOrder refusal) ∧
      ((∃ result, Request.ofFields fields >>= Request.compute = .ok result) ↔
        ∀ check ∈ Check.inOrder, ∀ refusal, ¬ check.Fails fields refusal) ∧
      (∀ style, calculate fields style = (Request.ofFields fields >>= Request.compute).map (·.render style)) ∧
      (∀ r, Request.ofFields fields = .ok r →
        (∀ v ∈ [r.principal, r.rate, r.time], ∃ negative m, v = .finite negative m ∧ (negative = true → m.units = 0)) ∧
          fields "time_unit" = some r.timeUnit ∧ r.frequency = (fields "frequency").getD "Annually") ∧
      (fields "interest_type" = some "simple" → ∀ others, fields.AgreeBut "frequency" others →
        Request.ofFields others >>= Request.compute = Request.ofFields fields >>= Request.compute) := by
  have hfollows := Request.follows fields
  refine ⟨hfollows.error_iff, hfollows.ok_iff, calculate_eq fields, fun r h => ?_, fun hsimple others hothers => ?_⟩
  · have hr := Request.submitted_of_ofFields h
    obtain ⟨hprincipal, hrate, htime⟩ : ¬ r.principal < 0 ∧ ¬ r.rate < 0 ∧ ¬ r.time < 0 := by
      simpa only [not_or, Request.entry] using hr.entry.nonnegative
    refine ⟨?_, hr.entry.timeUnit, hr.frequency⟩
    rw [List.forall_mem_cons, List.forall_mem_cons, List.forall_mem_singleton]
    exact ⟨hr.entry.principal.exists_finite hprincipal, hr.entry.rate.exists_finite hrate,
      hr.entry.time.exists_finite htime⟩
  · rw [Request.ofFields_of_agreeBut hothers]
    cases h : Request.ofFields fields with
    | error refusal => rfl
    | ok r =>
      have htype : r.interestType = .simple := by
        have hlabel := hsimple.symm.trans (Request.submitted_of_ofFields h).entry.interestType
        rw [Option.some_inj, Request.entry] at hlabel
        cases htype : r.interestType with
        | simple => rfl
        | compound =>
          rw [htype] at hlabel
          simp [InterestType.label] at hlabel
      show Request.compute { r with frequency := _ } = r.compute
      rw [Request.compute_of_simple htype]
      exact Request.compute_of_simple htype

/-- A negative zero is no fault, and of the others the first counts. -/
example :
    calculate (Fields.firstOf [("principal", "-0"), ("rate", "5"), ("time", "1,001"), ("time_unit", "Years"),
      ("interest_type", "Compound"), ("frequency", "Weekly")]) .plain = .error (.timeTooLarge 1000) := by
  decide +kernel

end InterestDesk
