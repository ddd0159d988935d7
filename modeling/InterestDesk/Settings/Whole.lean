/-!
# Whole — whole numbers below a limit

A whole number is decimal digits, with a plus before them if any.  Of several faults the first from the left is the
one reported.
-/
namespace InterestDesk
namespace Settings

/-- Why a text is no whole number below the limit. -/
inductive WholeError where
  | empty
  | invalidDigit
  | tooLarge
  deriving DecidableEq

def WholeError.message : WholeError → String
  | empty => "cannot parse integer from empty string"
  | invalidDigit => "invalid digit found in string"
  | tooLarge => "number too large to fit in target type"

def appendDigit (limit n : Nat) (c : Char) : Except WholeError Nat :=
  if !c.isDigit then .error .invalidDigit
  else if limit ≤ n * 10 + (c.toNat - '0'.toNat) then .error .tooLarge
  else .ok (n * 10 + (c.toNat - '0'.toNat))

/-- Reads digits, at least one. -/
def readDigits (limit : Nat) (digits : List Char) : Except WholeError Nat :=
  if digits.isEmpty then .error .invalidDigit
  else digits.foldlM (appendDigit limit) 0

/-- Reads a whole number below `limit`. -/
def readWhole (limit : Nat) : List Char → Except WholeError Nat
  | [] => .error .empty
  | '+' :: digits => readDigits limit digits
  | text => readDigits limit text

def portLimit : Nat := 65536

/-- The number of 64-bit words. -/
def wordLimit : Nat := 18446744073709551616

end Settings
end InterestDesk
