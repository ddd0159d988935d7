import InterestDesk.Powers
import InterestDesk.Rounding
/-!
# Binary64 — double precision numbers, kept exactly

A finite number is a sign and a magnitude, and a magnitude is a whole number of units of `2^-1074`.  Every operation
of the library is said on units: take the exact result, then round it with `Binary64.ofRatio`.
-/
namespace InterestDesk
namespace Binary64

/-- Units in one: the least positive magnitude is `2^-1074`. -/
def unitsPerOne : Nat := twoTo 1074

/-- The leading bit of a full significand, which has 53 bits. -/
def leadingBit : Nat := twoTo 52

/-- The place of the leading bit of the largest magnitudes above that of the subnormal ones. -/
def maxShift : Nat := 2045

/-- A nonnegative number of the format: `significand · 2^shift` units, in its one canonical form. -/
structure Magnitude where
  significand : Nat
  shift : Nat
  significand_lt : significand < 2 * leadingBit
  shift_le : shift ≤ maxShift
  canonical : shift = 0 ∨ leadingBit ≤ significand
  deriving DecidableEq

namespace Magnitude

def units (m : Magnitude) : Nat :=
  m.significand * twoTo m.shift

def zero : Magnitude :=
  ⟨0, 0, by decide, by decide, .inl rfl⟩

def isZero (m : Magnitude) : Bool :=
  m.significand == 0

/-- The interchange encoding without its sign bit. -/
def bits (m : Magnitude) : Nat :=
  m.shift * leadingBit + m.significand

theorem canonical_roundDiv (num den : Nat) :
    (num / den).log2 - 52 = 0 ∨ leadingBit ≤ roundDiv num (den * twoTo ((num / den).log2 - 52)) := by
  rcases Nat.eq_zero_or_pos ((num / den).log2 - 52) with h | h
  · exact .inl h
  · right
    apply le_roundDiv
    have hne : num / den ≠ 0 := by
      intro h0
      rw [h0] at h
      simp at h
    rw [← Nat.div_div_eq_div_mul, Nat.le_div_iff_mul_le (twoTo_pos _), leadingBit, ← twoTo_add]
    have hk : 52 + ((num / den).log2 - 52) = (num / den).log2 := by omega
    rw [hk]
    exact twoTo_log2_le hne

/-- The magnitude nearest to `num / den` units, ties to the even significand; `none` past the largest magnitude. -/
def nearest (num den : Nat) : Option Magnitude :=
  let shift := (num / den).log2 - 52
  let significand := roundDiv num (den * twoTo shift)
  if lt : significand < 2 * leadingBit then
    if le : shift ≤ maxShift then
      some ⟨significand, shift, lt, le, canonical_roundDiv num den⟩
    else none
  else if le : shift + 1 ≤ maxShift then
    some ⟨leadingBit, shift + 1, by decide, le, .inr (Nat.le_refl _)⟩
  else none

end Magnitude
end Binary64

open Binary64 (Magnitude unitsPerOne maxShift)

/-- A double precision number.  All NaNs are one. -/
inductive Binary64 where
  | nan
  | infinity (negative : Bool)
  | finite (negative : Bool) (magnitude : Magnitude)
  deriving DecidableEq

namespace Binary64

def zero (negative : Bool) : Binary64 :=
  .finite negative Magnitude.zero

/-- The number nearest to `±num / den` units; past the largest magnitude, infinity. -/
def ofRatio (negative : Bool) (num den : Nat) : Binary64 :=
  match Magnitude.nearest num den with
  | some magnitude => .finite negative magnitude
  | none => .infinity negative

def ofNat (n : Nat) : Binary64 :=
  ofRatio false (n * unitsPerOne) 1

instance (n : Nat) : OfNat Binary64 n :=
  ⟨ofNat n⟩

def isFinite : Binary64 → Bool
  | .finite _ _ => true
  | _ => false

def signedUnits (negative : Bool) (magnitude : Magnitude) : Int :=
  if negative then -(magnitude.units : Int) else magnitude.units

/-- The numeric order: zeros of either sign are equal, and a NaN is unordered. -/
def lt : Binary64 → Binary64 → Bool
  | .nan, _ => false
  | _, .nan => false
  | .infinity s, .infinity t => s && !t
  | .infinity s, .finite _ _ => s
  | .finite _ _, .infinity t => !t
  | .finite s a, .finite t b => decide (signedUnits s a < signedUnits t b)

instance : LT Binary64 :=
  ⟨fun x y => x.lt y = true⟩

instance (x y : Binary64) : Decidable (x < y) :=
  inferInstanceAs (Decidable (x.lt y = true))

def signBit : Nat := twoTo 63

/-- The number of exponent codes of an interchange encoding; the last one is for infinities and NaNs. -/
def exponentCodes : Nat := 2048

theorem exponentField_le (bits : Nat) (h : bits / leadingBit % exponentCodes + 1 ≠ exponentCodes)
    (h0 : bits / leadingBit % exponentCodes ≠ 0) : bits / leadingBit % exponentCodes - 1 ≤ maxShift := by
  have := Nat.mod_lt (bits / leadingBit) (show 0 < exponentCodes by decide)
  simp only [exponentCodes, maxShift] at *
  omega

def ofBits (bits : UInt64) : Binary64 :=
  let negative := decide (signBit ≤ bits.toNat)
  let exponent := bits.toNat / leadingBit % exponentCodes
  let fraction := bits.toNat % leadingBit
  have hf : fraction < leadingBit := Nat.mod_lt _ (by decide)
  if hi : exponent + 1 = exponentCodes then
    if fraction = 0 then .infinity negative else .nan
  else if hz : exponent = 0 then
    .finite negative ⟨fraction, 0, by omega, by decide, .inl rfl⟩
  else
    .finite negative ⟨leadingBit + fraction, exponent - 1, by omega, exponentField_le bits.toNat hi hz,
      .inr (Nat.le_add_right _ _)⟩

/-- The interchange encoding; a NaN is written as the quiet one with no payload. -/
def toBits : Binary64 → UInt64
  | .nan => 0x7ff8000000000000
  | .infinity negative => if negative then 0xfff0000000000000 else 0x7ff0000000000000
  | .finite negative magnitude =>
    UInt64.ofNat ((if negative then signBit else 0) + magnitude.bits)

end Binary64
end InterestDesk
