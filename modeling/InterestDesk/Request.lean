import InterestDesk.Decimal.Numeral
import InterestDesk.Report
import InterestDesk.Text.Blank
/-!
# Request — from submitted fields to a computed result

`Request.ofFields` reads and checks the fields in a fixed order, so the first fault is the one reported: the three
numbers, the required labels, the sign of the numbers, the ceiling on years and the interest type.  The frequency is
checked only when compound interest is computed.
-/
namespace InterestDesk

/-- Submitted form fields: the value of a field by its name. -/
abbrev Fields := String → Option String

namespace Fields

def empty : Fields :=
  fun _ => none

/-- The fields of a list of pairs, the first pair of a name counting. -/
def firstOf (pairs : List (String × String)) : Fields :=
  fun name => pairs.lookup name

/-- The fields of a list of pairs, the last pair of a name counting. -/
def lastOf (pairs : List (String × String)) : Fields :=
  firstOf pairs.reverse

def required (fields : Fields) (name : String) : Except Refusal String :=
  match fields name with
  | some value => .ok value
  | none => .error (.missingField name)

end Fields

/-- Reads a number: commas are dropped, then white space at the ends, and a finite decimal numeral must be left. -/
def readNumber (raw : String) : Except Refusal Binary64 :=
  match Decimal.Numeral.read? (Text.trim (raw.toList.filter (· != ','))) with
  | none => .error (.invalidNumber raw)
  | some numeral =>
    if numeral.toBinary64.isFinite then .ok numeral.toBinary64
    else .error (.invalidNumber raw)

def Fields.number (fields : Fields) (name : String) : Except Refusal Binary64 := do
  readNumber (← fields.required name)

def maxTimeYears : Binary64 :=
  1000

/-- A checked request; the labels of the unit and the frequency are kept as submitted. -/
structure Request where
  principal : Binary64
  rate : Binary64
  time : Binary64
  timeUnit : String
  interestType : InterestType
  frequency : String

structure Result where
  interestType : InterestType
  accrual : Accrual

def Result.render (result : Result) (style : ReportStyle) : String :=
  style.report result.interestType result.accrual

namespace Request

def ofFields (fields : Fields) : Except Refusal Request := do
  let principal ← fields.number "principal"
  let rate ← fields.number "rate"
  let time ← fields.number "time"
  let timeUnit ← fields.required "time_unit"
  let interestType ← fields.required "interest_type"
  let frequency := (fields "frequency").getD Frequency.default.label
  if principal < 0 ∨ rate < 0 ∨ time < 0 then throw .negativeValue
  if maxTimeYears < time ∧ TimeUnit.ofLabel? timeUnit = some .years then throw (.timeTooLarge maxTimeYears)
  let interestType ← InterestType.ofLabel interestType
  return ⟨principal, rate, time, timeUnit, interestType, frequency⟩

def years (r : Request) : Binary64 :=
  toYears r.time r.timeUnit

/-- The accrual by the formula of the request's interest type. -/
def accrual (r : Request) : Except Refusal Accrual :=
  match r.interestType with
  | .simple => .ok (Accrual.simple r.principal r.rate r.years)
  | .compound => Accrual.compound r.principal r.rate r.years r.frequency

/-- The result of a request; refused when an amount is not finite. -/
def compute (r : Request) : Except Refusal Result := do
  let accrual ← r.accrual
  if accrual.isFinite then return ⟨r.interestType, accrual⟩
  throw .overflow

end Request

/-- The report on a submitted form, or the first fault in it. -/
def calculate (fields : Fields) (style : ReportStyle) : Except Refusal String := do
  let result ← (← Request.ofFields fields).compute
  return result.render style

end InterestDesk
