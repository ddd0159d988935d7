import InterestDesk.Decimal.Numeral
import InterestDesk.Proofs.Binary64.Nearest
/-!
# Value — a numeral is its exact decimal, rounded once

`Numeral.toBinary64` settles decimals past `10^±400` without forming them, and drops leading zeros.  Neither shows: it
is always the exact decimal rounded to the nearest double (`toBinary64_eq`).
-/
namespace InterestDesk
namespace Decimal

open Binary64 (unitsPerOne maxShift)

theorem digit_le_nine {c : Char} (h : c.isDigit = true) : c.toNat - '0'.toNat ≤ 9 := by
  have hc := Char.isDigit_iff_toNat.1 h
  have h0 : '0'.toNat = 48 := rfl
  have h9 : '9'.toNat = 57 := rfl
  omega

theorem ofDigitChars_lt : ∀ {s : List Char}, (∀ c ∈ s, c.isDigit = true) → Nat.ofDigitChars 10 s 0 < tenTo s.length
  | [], _ => by
    rw [Nat.ofDigitChars_nil]
    exact tenTo_pos 0
  | c :: s, h => by
    have hs := ofDigitChars_lt fun d hd => h d (List.mem_cons_of_mem c hd)
    have hc := digit_le_nine (h c List.mem_cons_self)
    rw [Nat.ofDigitChars_cons, Nat.ofDigitChars_eq_ofDigitChars_zero, Nat.mul_zero, Nat.zero_add, List.length_cons,
      Nat.add_comm s.length 1, tenTo_add]
    have hmul := Nat.mul_le_mul_left (tenTo s.length) hc
    show tenTo s.length * _ + _ < 10 * tenTo s.length
    omega

theorem tenTo_le_ofDigitChars {c : Char} {s : List Char} (hc : c.isDigit = true) (hne : c ≠ '0') :
    tenTo s.length ≤ Nat.ofDigitChars 10 (c :: s) 0 := by
  have hpos : 1 ≤ c.toNat - '0'.toNat := by
    have hd := Char.isDigit_iff_toNat.1 hc
    have hz : c.toNat ≠ '0'.toNat := fun h => hne (Char.toNat_inj.1 h)
    omega
  rw [Nat.ofDigitChars_cons, Nat.ofDigitChars_eq_ofDigitChars_zero, Nat.mul_zero, Nat.zero_add]
  exact Nat.le_trans (Nat.le_mul_of_pos_right _ hpos) (Nat.le_add_right _ _)

theorem ofDigitChars_dropWhile_zero : ∀ s : List Char,
    Nat.ofDigitChars 10 (s.dropWhile (· == '0')) 0 = Nat.ofDigitChars 10 s 0
  | [] => rfl
  | c :: s => by
    rw [List.dropWhile_cons]
    split
    · rename_i hz
      rw [ofDigitChars_dropWhile_zero s, Nat.ofDigitChars_cons, beq_iff_eq.1 hz]
      rfl
    · rfl

theorem two_mul_unitsPerOne_le : 2 * unitsPerOne ≤ tenTo 401 := by
  decide +kernel

theorem largest_le : twoTo (53 + maxShift) ≤ tenTo 401 * unitsPerOne := by
  decide +kernel

/-- A decimal below `10^-400` is less than half a unit. -/
theorem ofRatio_of_tiny (negative : Bool) {v length : Nat} {exponent : Int} (hv : v < tenTo length)
    (htiny : length + exponent < -extremeExponent) :
    Binary64.ofRatio negative (v * unitsPerOne * tenTo exponent.toNat) (tenTo (-exponent).toNat) = .zero negative := by
  unfold extremeExponent at htiny
  obtain ⟨k, hk⟩ : ∃ k : Nat, (-exponent).toNat = length + 401 + k := ⟨(-exponent).toNat - (length + 401), by omega⟩
  have hexp : exponent.toNat = 0 := by omega
  have hhalf : 2 * (v * unitsPerOne * tenTo exponent.toNat) < tenTo (-exponent).toNat := by
    rw [hexp, hk, tenTo_add, tenTo_add]
    calc 2 * (v * unitsPerOne * tenTo 0)
        = v * (2 * unitsPerOne) := by
          rw [show tenTo 0 = 1 from rfl, Nat.mul_one, Nat.mul_left_comm]
      _ ≤ v * tenTo 401 := Nat.mul_le_mul_left v two_mul_unitsPerOne_le
      _ < tenTo length * tenTo 401 := Nat.mul_lt_mul_of_pos_right hv (tenTo_pos 401)
      _ ≤ tenTo length * tenTo 401 * tenTo k := Nat.le_mul_of_pos_right _ (tenTo_pos k)
  exact Binary64.ofRatio_of_lt negative hhalf

/-- A decimal of at least `10^401` is past the largest double. -/
theorem ofRatio_of_huge (negative : Bool) {v length : Nat} {exponent : Int} (hv : tenTo length ≤ v)
    (hhuge : extremeExponent < length + exponent) :
    Binary64.ofRatio negative (v * unitsPerOne * tenTo exponent.toNat) (tenTo (-exponent).toNat) =
      .infinity negative := by
  unfold extremeExponent at hhuge
  have hplaces : 401 + (-exponent).toNat ≤ length + exponent.toNat := by omega
  have hpast : twoTo (53 + maxShift) * tenTo (-exponent).toNat ≤ v * unitsPerOne * tenTo exponent.toNat := by
    calc twoTo (53 + maxShift) * tenTo (-exponent).toNat
        ≤ tenTo 401 * unitsPerOne * tenTo (-exponent).toNat := Nat.mul_le_mul_right _ largest_le
      _ = tenTo (401 + (-exponent).toNat) * unitsPerOne := by rw [tenTo_add, Nat.mul_right_comm]
      _ ≤ tenTo (length + exponent.toNat) * unitsPerOne := Nat.mul_le_mul_right _ (tenTo_le_tenTo hplaces)
      _ = tenTo length * unitsPerOne * tenTo exponent.toNat := by rw [tenTo_add, Nat.mul_right_comm]
      _ ≤ v * unitsPerOne * tenTo exponent.toNat :=
        Nat.mul_le_mul_right _ (Nat.mul_le_mul_right _ hv)
  exact Binary64.ofRatio_of_le negative (tenTo_pos _) hpast

/-- **A numeral names its exact decimal, rounded once**: the shortcuts for extreme decimals do not show. -/
theorem Numeral.toBinary64_eq (n : Numeral) (h : ∀ c ∈ n.digits, c.isDigit = true) :
    n.toBinary64 = .ofRatio n.negative
      (Nat.ofDigitChars 10 n.digits 0 * unitsPerOne * tenTo n.exponent.toNat) (tenTo (-n.exponent).toNat) := by
  have hdigits : ∀ c ∈ n.digits.dropWhile (· == '0'), c.isDigit = true := fun c hc =>
    h c ((List.dropWhile_suffix _).mem hc)
  rw [← ofDigitChars_dropWhile_zero]
  unfold Numeral.toBinary64
  dsimp only
  cases hd : n.digits.dropWhile (· == '0') with
  | nil =>
    have hzero : 2 * (Nat.ofDigitChars 10 [] 0 * unitsPerOne * tenTo n.exponent.toNat) < tenTo (-n.exponent).toNat := by
      rw [Nat.ofDigitChars_nil, Nat.zero_mul, Nat.zero_mul, Nat.mul_zero]
      exact tenTo_pos _
    exact (Binary64.ofRatio_of_lt n.negative hzero).symm
  | cons c s =>
    have hne : c ≠ '0' := by
      have hhead := List.head?_dropWhile_not (· == '0') n.digits
      rw [hd] at hhead
      simpa using hhead
    rw [hd] at hdigits
    have hlow := tenTo_le_ofDigitChars (s := s) (hdigits c List.mem_cons_self) hne
    have hhigh := ofDigitChars_lt hdigits
    rw [List.isEmpty_cons, Bool.false_or, List.length_cons]
    split
    · rename_i htiny
      exact (ofRatio_of_tiny n.negative hhigh (of_decide_eq_true htiny)).symm
    · split
      · rename_i hhuge
        exact (ofRatio_of_huge n.negative hlow (by omega)).symm
      · rw [digitsValue_eq]

end Decimal
end InterestDesk
