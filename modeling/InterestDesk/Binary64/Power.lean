import InterestDesk.Binary64.Arithmetic
/-!
# Power — exact whole powers, all others through the binary logarithm

A small whole exponent is an exact power, rounded once.  Any other power is `2^(y · log2 x)`: the digits of the
logarithm come from repeated squaring, the power of the fraction from repeated roots, both with some two hundred
binary places to spare, and the outcome is rounded once.  Zeros, infinities, NaNs and negative bases follow the
usual conventions: `x^0` and `1^y` are one, and a negative base has a power only at whole exponents.
-/
namespace InterestDesk
namespace Binary64

/-- Binary places of the fixed-point numbers below. -/
def workBits : Nat := 256

/-- Binary places of a logarithm. -/
def logBits : Nat := 224

/-- Binary places kept of the fraction of an exponent. -/
def rootBits : Nat := 160

/-- The largest whole exponent whose power is taken exactly. -/
def exactExponents : Nat := 64

/-- The next `count` binary digits of `log2 (m / 2^workBits)`, for a quotient in `[1, 2)`, after those in `digits`:
squaring doubles the logarithm, and a square of two or more shows a one. -/
def logDigits : (count m digits : Nat) → Nat
  | 0, _, digits => digits
  | count + 1, m, digits =>
    let square := m * m / twoTo workBits
    if twoTo (workBits + 1) ≤ square then logDigits count (square / 2) (2 * digits + 1)
    else logDigits count square (2 * digits)

/-- `2^(f / 2^n)` in fixed point, for `f < 2^n`: the root of the power with the exponent doubled. -/
def rootOfTwo : (n f : Nat) → Nat
  | 0, _ => twoTo workBits
  | n + 1, f =>
    let rest := rootOfTwo n (f % twoTo n)
    Nat.sqrt ((if twoTo n ≤ f then 2 * rest else rest) * twoTo workBits)

namespace Magnitude

/-- The binary logarithm of a nonzero magnitude, rounded down to a multiple of `2^-logBits` and counted in those. -/
def log2 (m : Magnitude) : Int :=
  let top := m.significand.log2
  let whole : Int := top + m.shift - 1074
  whole * twoTo logBits + logDigits logBits (m.significand * twoTo (workBits - top)) 0

def isWhole (m : Magnitude) : Bool :=
  m.units % unitsPerOne == 0

def isOdd (m : Magnitude) : Bool :=
  m.isWhole && m.units / unitsPerOne % 2 == 1

/-- `2^(e / 2^(logBits + 1074))`; `none` past the largest magnitude. -/
def exp2 (e : Int) : Option Magnitude :=
  let whole := e / twoTo (logBits + 1074)
  let fraction := (e % twoTo (logBits + 1074)).toNat / twoTo (logBits + 1074 - rootBits)
  if 1100 < whole then none
  else if whole < -1200 then some zero
  else nearest (rootOfTwo rootBits fraction * twoTo (whole + 1200).toNat) (twoTo (workBits + 1200 - 1074))

/-- A nonzero magnitude to the power `±y`; `none` past the largest magnitude. -/
def pow (x : Magnitude) (negative : Bool) (y : Magnitude) : Option Magnitude :=
  let n := y.units / unitsPerOne
  if !negative && y.isWhole && 0 < n && n ≤ exactExponents then
    nearest (Nat.pow x.units n) (Nat.pow unitsPerOne (n - 1))
  else
    exp2 (x.log2 * signedUnits negative y)

end Magnitude

def ofMagnitude? (negative : Bool) : Option Magnitude → Binary64
  | some m => .finite negative m
  | none => .infinity negative

/-- `x` to an infinite power: one from `±1`, else as the powers of `x` grow or shrink. -/
def powInfinity (x : Binary64) (negative : Bool) : Binary64 :=
  match x with
  | .nan => .nan
  | .infinity _ => if negative then zero false else .infinity false
  | .finite _ a =>
    if a.units = unitsPerOne then 1
    else if decide (unitsPerOne < a.units) != negative then .infinity false
    else zero false

/-- `x` to a nonzero finite power `±b`. -/
def powFinite (x : Binary64) (negative : Bool) (b : Magnitude) : Binary64 :=
  match x with
  | .nan => .nan
  | .infinity s =>
    if negative then zero (s && b.isOdd) else .infinity (s && b.isOdd)
  | .finite s a =>
    if a.isZero then
      if negative then .infinity (s && b.isOdd) else zero (s && b.isOdd)
    else if s && !b.isWhole then .nan
    else ofMagnitude? (s && b.isOdd) (a.pow negative b)

def pow (x y : Binary64) : Binary64 :=
  match y with
  | .nan => if x = 1 then 1 else .nan
  | .infinity negative => powInfinity x negative
  | .finite negative b => if b.isZero then 1 else powFinite x negative b

instance : HPow Binary64 Binary64 Binary64 := ⟨pow⟩

end Binary64
end InterestDesk
