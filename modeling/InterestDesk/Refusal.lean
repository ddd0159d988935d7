import InterestDesk.Decimal.Shortest
/-!
# Refusal — why a calculation gives no result

Each cause is a constructor, and `Refusal.message` is the one place that words it for the user.
-/
namespace InterestDesk

inductive Refusal where
  /-- a numeric field holds no finite decimal number; `raw` is the field as submitted -/
  | invalidNumber (raw : String)
  | missingField (name : String)
  | negativeValue
  /-- a time in years is above the ceiling -/
  | timeTooLarge (maxYears : Binary64)
  | unknownInterestType
  | unknownFrequency
  /-- the result is past the largest double -/
  | overflow
  /-- the client has used up its allowance -/
  | rateLimited
  deriving DecidableEq

namespace Refusal

/-- The text shown to the user; it never quotes a submitted value. -/
def message : Refusal → String
  | invalidNumber _ => "Please enter valid numeric values."
  | missingField name => "Missing required field: '" ++ name ++ "'"
  | negativeValue => "Negative values are not allowed."
  | timeTooLarge maxYears => "Time period is too long (max " ++ Decimal.formatShortest maxYears ++ " years)."
  | unknownInterestType => "Please select an interest type."
  | unknownFrequency => "Please select a valid compounding frequency."
  | overflow => "Result too large to calculate."
  | rateLimited => "Too many requests. Please try again later."

/-- Whether the request was turned away before it was read. -/
def isRateLimited : Refusal → Bool
  | rateLimited => true
  | _ => false

end Refusal
end InterestDesk
