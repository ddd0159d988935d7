import InterestDesk.Binary64.Basic
/-!
# Fixed — doubles with a fixed number of decimal places

The exact value of a double is rounded to the asked number of places, a half going to the even neighbour.  In the
grouped form a separator stands between groups of three digits of the whole part, and a value that rounds to zero has
no sign.
-/
namespace InterestDesk
namespace Decimal

def digits (n : Nat) : List Char :=
  Nat.toDigits 10 n

/-- The exact value of a magnitude in whole `10^-places`, rounded half to even. -/
def scaled (m : Binary64.Magnitude) (places : Nat) : Nat :=
  roundDiv (m.units * tenTo places) Binary64.unitsPerOne

/-- The point and exactly `places` digits after it; nothing for no places. -/
def fraction (places n : Nat) : List Char :=
  if places = 0 then []
  else '.' :: List.leftpad places '0' (digits (n % tenTo places))

/-- The digits with a separator after each one that has a positive multiple of three digits behind it. -/
def grouped (separator : Char) : List Char → List Char
  | [] => []
  | c :: rest =>
    if rest.length % 3 = 0 && !rest.isEmpty then c :: separator :: grouped separator rest
    else c :: grouped separator rest

def nonFiniteWord : Binary64 → String
  | .infinity true => "-inf"
  | .infinity false => "inf"
  | _ => "NaN"

/-- A double with `places` decimal places and its whole part grouped by `separator`. -/
def formatGrouped (value : Binary64) (separator : Char) (places : Nat) : String :=
  match value with
  | .finite negative m =>
    let n := scaled m places
    let sign := if negative && n != 0 then ['-'] else []
    String.ofList (sign ++ grouped separator (digits (n / tenTo places)) ++ fraction places n)
  | other => nonFiniteWord other

/-- A nonnegative double with `places` decimal places, ungrouped. -/
def formatFixed (m : Binary64.Magnitude) (places : Nat) : String :=
  let n := scaled m places
  String.ofList (digits (n / tenTo places) ++ fraction places n)

/-- A double with `places` decimal places, ungrouped and without its sign, or the word for one that is not finite. -/
def formatUnsigned (value : Binary64) (places : Nat) : String :=
  match value with
  | .finite _ m => formatFixed m places
  | other => nonFiniteWord other

end Decimal
end InterestDesk
