import InterestDesk.Binary64.Basic
/-!
# Numeral — decimal numerals and the numbers they name

A numeral is an optional sign, decimal digits with at most one point among or around them, and an optional power of
ten.  It names an exact decimal, and `Numeral.toBinary64` is the double nearest to that decimal.
-/
namespace InterestDesk
namespace Decimal

/-- The exact decimal `±digits · 10^exponent`. -/
structure Numeral where
  negative : Bool
  digits : List Char
  exponent : Int

/-- Splits off a sign; a text without one is positive. -/
def takeSign : List Char → Bool × List Char
  | '+' :: rest => (false, rest)
  | '-' :: rest => (true, rest)
  | text => (false, text)

def takeFraction : List Char → List Char × List Char
  | '.' :: rest => (rest.takeWhile Char.isDigit, rest.dropWhile Char.isDigit)
  | text => ([], text)

/-- The size from which on a power of ten takes no further digit. -/
def exponentCeiling : Nat := 65536

/-- A power of ten with one more digit; past the ceiling it stays. -/
def exponentStep (n : Nat) (digit : Char) : Nat :=
  if n < exponentCeiling then 10 * n + (digit.toNat - '0'.toNat) else n

def exponentOf (digits : List Char) : Nat :=
  digits.foldl exponentStep 0

theorem le_ofDigitChars (s : List Char) (n : Nat) : n ≤ Nat.ofDigitChars 10 s n := by
  induction s generalizing n with
  | nil => simp
  | cons c s ih =>
    rw [Nat.ofDigitChars_cons]
    exact Nat.le_trans (by omega) (ih (10 * n + (c.toNat - '0'.toNat)))

theorem foldl_exponentStep (s : List Char) (n : Nat) (h : Nat.ofDigitChars 10 s n < exponentCeiling) :
    s.foldl exponentStep n = Nat.ofDigitChars 10 s n := by
  induction s generalizing n with
  | nil => simp
  | cons c s ih =>
    have hn := Nat.lt_of_le_of_lt (le_ofDigitChars (c :: s) n) h
    rw [Nat.ofDigitChars_cons] at h ⊢
    rw [List.foldl_cons, exponentStep, if_pos hn, ih _ h]

theorem exponentOf_eq (digits : List Char) (h : Nat.ofDigitChars 10 digits 0 < exponentCeiling) :
    exponentOf digits = Nat.ofDigitChars 10 digits 0 :=
  foldl_exponentStep digits 0 h

/-- Reads the rest of a numeral as its power of ten: nothing, or a mark, an optional sign and digits. -/
def readExponent? : List Char → Option Int
  | [] => some 0
  | mark :: rest =>
    let (negative, digits) := takeSign rest
    if (mark == 'e' || mark == 'E') && !digits.isEmpty && digits.all Char.isDigit then
      let n : Int := exponentOf digits
      some (if negative then -n else n)
    else none

/-- Reads a whole text as a numeral; digits are required before or after the point. -/
def Numeral.read? (text : List Char) : Option Numeral :=
  let (negative, unsigned) := takeSign text
  let whole := unsigned.takeWhile Char.isDigit
  let (fraction, rest) := takeFraction (unsigned.dropWhile Char.isDigit)
  if whole.isEmpty && fraction.isEmpty then none
  else (readExponent? rest).map fun exponent => ⟨negative, whole ++ fraction, exponent - fraction.length⟩

/-- The number that digits are, by halves: two halves of half the length take far less work than one digit at a time. -/
def digitsValue : (depth : Nat) → List Char → Nat
  | 0, s => Nat.ofDigitChars 10 s 0
  | depth + 1, s =>
    let half := s.length / 2
    digitsValue depth (s.take half) * tenTo (s.length - half) + digitsValue depth (s.drop half)

theorem digitsValue_eq (depth : Nat) (s : List Char) : digitsValue depth s = Nat.ofDigitChars 10 s 0 := by
  induction depth generalizing s with
  | zero => rfl
  | succ depth ih =>
    simp only [digitsValue, ih]
    conv => rhs; rw [← List.take_append_drop (s.length / 2) s, Nat.ofDigitChars_append,
      Nat.ofDigitChars_eq_ofDigitChars_zero, List.length_drop, Nat.mul_comm]
    rfl

/-- How often digits are halved: down to a few dozen. -/
def halvings (s : List Char) : Nat :=
  (s.length / 64).log2

/-- The power of ten past every double: `10^400` rounds to infinity and `10^-400` to zero. -/
def extremeExponent : Int := 400

/-- The double nearest to a numeral, ties to even.  A decimal past `10^±400` is settled without its digits. -/
def Numeral.toBinary64 (n : Numeral) : Binary64 :=
  let digits := n.digits.dropWhile (· == '0')
  let top := digits.length + n.exponent
  if digits.isEmpty || top < -extremeExponent then .zero n.negative
  else if extremeExponent < top - 1 then .infinity n.negative
  else
    let amount := digitsValue (halvings digits) digits * Binary64.unitsPerOne
    .ofRatio n.negative (amount * tenTo n.exponent.toNat) (tenTo (-n.exponent).toNat)

end Decimal
end InterestDesk
