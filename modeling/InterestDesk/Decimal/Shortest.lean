import InterestDesk.Decimal.Fixed
/-!
# Shortest — the fewest digits that read back

Among the decimals with one, two, three and more significant digits, the first count for which a neighbour of the
value rounds back to it wins; of two such neighbours the nearer is taken, and a tie goes up.  The digits are written
positionally, without a power of ten and without a fraction of zeros.
-/
namespace InterestDesk
namespace Decimal

/-- The decimal `coefficient · 10^exponent`. -/
structure Candidate where
  coefficient : Nat
  exponent : Int

def Candidate.ratio (d : Candidate) : Nat × Nat :=
  (d.coefficient * tenTo d.exponent.toNat * Binary64.unitsPerOne, tenTo (-d.exponent).toNat)

def readsBack (m : Binary64.Magnitude) (d : Candidate) : Bool :=
  Binary64.Magnitude.nearest d.ratio.1 d.ratio.2 == some m

def enoughDigits : Nat := 17

/-- The number of digits of the whole part of a magnitude; for one below one, less the zeros behind the point. -/
def leadingPlace (m : Binary64.Magnitude) : Int :=
  if Binary64.unitsPerOne ≤ m.units then (digits (m.units / Binary64.unitsPerOne)).length
  else 1 - ((digits (Binary64.unitsPerOne / m.units)).length : Int)

/-- The neighbour of the magnitude with `count` significant digits that reads back, the nearer one of two. -/
def neighbour? (m : Binary64.Magnitude) (count : Nat) : Option Candidate :=
  let exponent := leadingPlace m - count
  let num := m.units * tenTo (-exponent).toNat
  let den := Binary64.unitsPerOne * tenTo exponent.toNat
  let below : Candidate := ⟨num / den, exponent⟩
  let above : Candidate := ⟨num / den + 1, exponent⟩
  match readsBack m below, readsBack m above with
  | true, true => some (if den ≤ 2 * (num % den) then above else below)
  | true, false => some below
  | false, true => some above
  | false, false => none

/-- The shortest decimal that reads back as a nonzero magnitude. -/
def shortest (m : Binary64.Magnitude) : Candidate :=
  ((List.range enoughDigits).findSome? fun i => neighbour? m (i + 1)).getD ⟨m.units * Nat.pow 5 1074, -1074⟩

/-- A decimal written positionally, with no zeros at the end of its fraction. -/
def Candidate.positional (d : Candidate) : List Char :=
  let places := (-d.exponent).toNat
  let n := d.coefficient * tenTo d.exponent.toNat
  let text := digits (n / tenTo places)
  match ((fraction places n).reverse.dropWhile (· == '0')).reverse with
  | [] => text
  | ['.'] => text
  | tail => text ++ tail

/-- The shortest positional text of a double that reads back as it. -/
def formatShortest : Binary64 → String
  | .finite negative m =>
    let sign := if negative then ['-'] else []
    String.ofList (sign ++ if m.isZero then ['0'] else (shortest m).positional)
  | other => nonFiniteWord other

end Decimal
end InterestDesk
