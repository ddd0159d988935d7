import InterestDesk.Binary64.Power
import InterestDesk.Interest.Terms
/-!
# Accrual — the interest formulas

Simple interest is `principal · rate · years / 100`.  Compound interest grows the principal by
`(1 + rate / (100 · n))` to the power `n · years`, with `n` periods in a year.
-/
namespace InterestDesk

/-- The interest of a period and the amount it leads to. -/
structure Accrual where
  interest : Binary64
  total : Binary64
  deriving DecidableEq

namespace Accrual

def isFinite (a : Accrual) : Bool :=
  a.interest.isFinite && a.total.isFinite

def simple (principal rate years : Binary64) : Accrual :=
  let interest := principal * rate * years / 100
  ⟨interest, principal + interest⟩

def growth (rate years : Binary64) (frequency : Frequency) : Binary64 :=
  let periods := Binary64.ofNat frequency.periodsPerYear
  (1 + rate / (100 * periods)) ^ (periods * years)

/-- Compound interest; refused when the total is not finite. -/
def compoundWith (principal rate years : Binary64) (frequency : Frequency) : Except Refusal Accrual :=
  let total := principal * growth rate years frequency
  if total.isFinite then .ok ⟨total - principal, total⟩
  else .error .overflow

/-- Compound interest with the frequency given by its label. -/
def compound (principal rate years : Binary64) (frequency : String) : Except Refusal Accrual := do
  compoundWith principal rate years (← Frequency.ofLabel frequency)

end Accrual
end InterestDesk
