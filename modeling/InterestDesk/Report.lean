import InterestDesk.Decimal.Fixed
import InterestDesk.Interest.Accrual
/-!
# Report — a result as two lines of text

The first line holds the interest under the heading of its type, the second the total.  Nothing in a report comes
from the submitted form.
-/
namespace InterestDesk

structure ReportStyle where
  lineBreak : String
  currency : String
  separator : Char
  precision : Nat
  deriving DecidableEq

namespace ReportStyle

def defaultCurrency : String :=
  "INR"

/-- Plain text: a line feed between the lines, commas between thousands and two decimal places. -/
def plain : ReportStyle :=
  ⟨"\n", defaultCurrency, ',', 2⟩

/-- The plain style with a line break for a page. -/
def html : ReportStyle :=
  { plain with lineBreak := "<br>" }

/-- An amount of money as it stands in a report. -/
def amount (style : ReportStyle) (value : Binary64) : String :=
  Decimal.formatGrouped value style.separator style.precision ++ " " ++ style.currency

def report (style : ReportStyle) (interestType : InterestType) (accrual : Accrual) : String :=
  interestType.heading ++ ": " ++ style.amount accrual.interest ++ style.lineBreak
    ++ "Total Amount: " ++ style.amount accrual.total

end ReportStyle
end InterestDesk
