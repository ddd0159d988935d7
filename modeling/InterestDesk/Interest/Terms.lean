import InterestDesk.Binary64.Arithmetic
import InterestDesk.Refusal
/-!
# Terms — time units, compounding frequencies and interest types

Each is a closed set with one label per member.  An unknown time unit counts as years; an unknown frequency or
interest type is refused.
-/
namespace InterestDesk

inductive TimeUnit where
  | years | months | days | minutes | seconds
  deriving DecidableEq

namespace TimeUnit

def all : List TimeUnit :=
  [years, months, days, minutes, seconds]

def label : TimeUnit → String
  | years => "Years"
  | months => "Months"
  | days => "Days"
  | minutes => "Minutes"
  | seconds => "Seconds"

/-- How many of the unit make a year of 365 days. -/
def perYear : TimeUnit → Nat
  | years => 1
  | months => 12
  | days => 365
  | minutes => 525600
  | seconds => 31536000

/-- The part of a year that one of the unit is. -/
def yearsFactor (unit : TimeUnit) : Binary64 :=
  1 / Binary64.ofNat unit.perYear

def ofLabel? (label : String) : Option TimeUnit :=
  all.find? (·.label == label)

theorem ofLabel?_label (unit : TimeUnit) : ofLabel? unit.label = some unit := by
  cases unit <;> decide

end TimeUnit

/-- A time in years; a time in an unknown unit counts as years. -/
def toYears (value : Binary64) (label : String) : Binary64 :=
  value * ((TimeUnit.ofLabel? label).elim 1 TimeUnit.yearsFactor)

/-- How often interest is added to the principal. -/
inductive Frequency where
  | annually | semiAnnually | quarterly | monthly
  deriving DecidableEq

namespace Frequency

/-- All frequencies, the rarest first. -/
def all : List Frequency :=
  [annually, semiAnnually, quarterly, monthly]

def label : Frequency → String
  | annually => "Annually"
  | semiAnnually => "Semi-Annually"
  | quarterly => "Quarterly"
  | monthly => "Monthly"

def periodsPerYear : Frequency → Nat
  | annually => 1
  | semiAnnually => 2
  | quarterly => 4
  | monthly => 12

/-- The frequency of a request that names none. -/
def default : Frequency :=
  annually

def ofLabel (label : String) : Except Refusal Frequency :=
  match all.find? (·.label == label) with
  | some frequency => .ok frequency
  | none => .error .unknownFrequency

theorem ofLabel_label (frequency : Frequency) : ofLabel frequency.label = .ok frequency := by
  cases frequency <;> rfl

end Frequency

/-- The rule interest is computed by. -/
inductive InterestType where
  | simple | compound
  deriving DecidableEq

namespace InterestType

def all : List InterestType :=
  [simple, compound]

def label : InterestType → String
  | simple => "simple"
  | compound => "compound"

def heading : InterestType → String
  | simple => "Simple Interest"
  | compound => "Compound Interest"

def ofLabel (label : String) : Except Refusal InterestType :=
  match all.find? (·.label == label) with
  | some interestType => .ok interestType
  | none => .error .unknownInterestType

theorem ofLabel_label (interestType : InterestType) : ofLabel interestType.label = .ok interestType := by
  cases interestType <;> rfl

end InterestType
end InterestDesk
