import InterestDesk.Binary64.Basic
import InterestDesk.Proofs.Rounding
/-!
# Nearest — the magnitude nearest to a quotient

`Magnitude.nearest` rounds a quotient to a multiple of the unit in its last place.  No magnitude is nearer to the
quotient (`dist_nearest_le`): one with a larger shift is a multiple of the same unit, and one with a smaller shift lies
below the whole binade.  There is no nearest magnitude only past the largest one.
-/
namespace InterestDesk
namespace Binary64
namespace Magnitude

/-- The shift at which `nearest` rounds a quotient. -/
abbrev shiftOf (num den : Nat) : Nat :=
  (num / den).log2 - 52

theorem log2_lt_of_lt {n k : Nat} (hn : n ≠ 0) (h : n < twoTo k) : n.log2 < k :=
  (Nat.log2_lt hn).2 h

theorem le_log2_of_le {n k : Nat} (hn : n ≠ 0) (h : twoTo k ≤ n) : k ≤ n.log2 :=
  (Nat.le_log2 hn).2 h

theorem units_lt (m : Magnitude) : m.units < 2 * leadingBit * twoTo m.shift :=
  Nat.mul_lt_mul_of_pos_right m.significand_lt (twoTo_pos m.shift)

theorem div_shiftOf_lt (num den : Nat) : num / (den * twoTo (shiftOf num den)) < 2 * leadingBit := by
  rw [← Nat.div_div_eq_div_mul, Nat.div_lt_iff_lt_mul (twoTo_pos _)]
  have hbits : num / den < twoTo ((num / den).log2 + 1) := Nat.lt_log2_self
  have hwide : twoTo ((num / den).log2 + 1) ≤ twoTo (53 + shiftOf num den) :=
    twoTo_le_twoTo (by unfold shiftOf; omega)
  rw [twoTo_add 53] at hwide
  exact Nat.lt_of_lt_of_le hbits hwide

theorem roundDiv_shiftOf_le (num den : Nat) :
    roundDiv num (den * twoTo (shiftOf num den)) ≤ 2 * leadingBit :=
  roundDiv_le (div_shiftOf_lt num den)

/-- **What `nearest` can give**: the rounded significand, a carry into the next binade, or nothing past the last
shift. -/
theorem nearest_cases (num den : Nat) :
    (shiftOf num den ≤ maxShift ∧ ∃ m, nearest num den = some m ∧ m.shift = shiftOf num den ∧
      m.significand = roundDiv num (den * twoTo (shiftOf num den))) ∨
    (roundDiv num (den * twoTo (shiftOf num den)) = 2 * leadingBit ∧ ∃ m, nearest num den = some m ∧
      m.shift = shiftOf num den + 1 ∧ m.significand = leadingBit) ∨
    (nearest num den = none ∧ (maxShift < shiftOf num den ∨
      maxShift = shiftOf num den ∧ roundDiv num (den * twoTo (shiftOf num den)) = 2 * leadingBit)) := by
  have hle := roundDiv_shiftOf_le num den
  unfold nearest
  dsimp only
  by_cases hlt : roundDiv num (den * twoTo (shiftOf num den)) < 2 * leadingBit
  · rw [dif_pos hlt]
    by_cases hs : shiftOf num den ≤ maxShift
    · rw [dif_pos hs]
      exact .inl ⟨hs, _, rfl, rfl, rfl⟩
    · rw [dif_neg hs]
      exact .inr (.inr ⟨rfl, .inl (Nat.lt_of_not_le hs)⟩)
  · rw [dif_neg hlt]
    have heq := Nat.le_antisymm hle (Nat.le_of_not_lt hlt)
    by_cases hs : shiftOf num den + 1 ≤ maxShift
    · rw [dif_pos hs]
      exact .inr (.inl ⟨heq, _, rfl, rfl, rfl⟩)
    · rw [dif_neg hs]
      exact .inr (.inr ⟨rfl, by omega⟩)

/-- **The nearest magnitude is the quotient rounded to a multiple of its last place**, also when the rounding carries
into the next binade. -/
theorem units_nearest {num den : Nat} {m : Magnitude} (h : nearest num den = some m) :
    m.units = roundDiv num (den * twoTo (shiftOf num den)) * twoTo (shiftOf num den) := by
  unfold units
  rcases nearest_cases num den with ⟨-, m', hm, hshift, hsig⟩ | ⟨hcarry, m', hm, hshift, hsig⟩ | ⟨hnone, -⟩
  · cases hm.symm.trans h
    rw [hshift, hsig]
  · cases hm.symm.trans h
    rw [hshift, hsig, hcarry, twoTo_add, Nat.mul_comm 2 leadingBit, Nat.mul_assoc, Nat.mul_comm (twoTo _)]
  · rw [hnone] at h
    cases h

/-- Below the shift of a quotient lie only magnitudes under its leading bit. -/
theorem units_le_of_shift_lt {num den : Nat} {m : Magnitude} (h : m.shift < shiftOf num den) :
    m.units ≤ leadingBit * twoTo (shiftOf num den) ∧ leadingBit * twoTo (shiftOf num den) * den ≤ num := by
  have hlog : 52 + shiftOf num den = (num / den).log2 := by
    unfold shiftOf at h ⊢
    omega
  have hne : num / den ≠ 0 := by
    intro h0
    rw [h0] at hlog
    simp at hlog
  refine ⟨?_, ?_⟩
  · refine Nat.le_trans (Nat.le_of_lt m.units_lt) ?_
    rw [Nat.mul_comm 2 leadingBit, Nat.mul_assoc]
    refine Nat.mul_le_mul_left leadingBit ?_
    rw [show 2 = twoTo 1 from rfl, ← twoTo_add]
    exact twoTo_le_twoTo (by omega)
  · rw [leadingBit, ← twoTo_add, hlog]
    exact Nat.le_trans (Nat.mul_le_mul_right den (twoTo_log2_le hne)) (Nat.div_mul_le_self num den)

/-- **No magnitude is nearer to a quotient than the nearest one.** -/
theorem dist_nearest_le {num den : Nat} (hden : 0 < den) {m : Magnitude} (h : nearest num den = some m)
    (other : Magnitude) : Nat.dist num (m.units * den) ≤ Nat.dist num (other.units * den) := by
  have hpos : 0 < den * twoTo (shiftOf num den) := Nat.mul_pos hden (twoTo_pos _)
  -- Among the multiples of the last place the rounded quotient is the nearest.
  have hgrid : ∀ k, Nat.dist num (m.units * den) ≤ Nat.dist num (k * twoTo (shiftOf num den) * den) := by
    intro k
    rw [units_nearest h, Nat.mul_assoc, Nat.mul_assoc, Nat.mul_comm (twoTo _) den]
    exact dist_roundDiv_le num hpos k
  rcases Nat.lt_or_ge other.shift (shiftOf num den) with hlt | hge
  · obtain ⟨hle, hnum⟩ := units_le_of_shift_lt hlt
    have hmul := Nat.mul_le_mul_right den hle
    refine Nat.le_trans (hgrid leadingBit) ?_
    unfold Nat.dist
    omega
  · obtain ⟨gap, hgap⟩ := Nat.exists_eq_add_of_le hge
    have hother : other.units = other.significand * twoTo gap * twoTo (shiftOf num den) := by
      unfold units
      rw [hgap, Nat.add_comm, twoTo_add, Nat.mul_assoc]
    rw [hother]
    exact hgrid _

/-- The largest magnitude, in units. -/
def maxUnits : Nat :=
  (2 * leadingBit - 1) * twoTo maxShift

theorem units_le_maxUnits (m : Magnitude) : m.units ≤ maxUnits :=
  Nat.mul_le_mul (Nat.le_sub_one_of_lt m.significand_lt) (twoTo_le_twoTo m.shift_le)

theorem exists_nearest {num den : Nat} (hden : 0 < den) (h : num ≤ maxUnits * den) : ∃ m, nearest num den = some m := by
  have hq : num / den < twoTo (53 + maxShift) := by
    rw [Nat.div_lt_iff_lt_mul hden]
    refine Nat.lt_of_le_of_lt h (Nat.mul_lt_mul_of_pos_right ?_ hden)
    rw [maxUnits, twoTo_add]
    exact Nat.mul_lt_mul_of_pos_right (by decide) (twoTo_pos maxShift)
  have hshift : shiftOf num den ≤ maxShift := by
    by_cases h0 : num / den = 0
    · simp [shiftOf, h0]
    · have := log2_lt_of_lt h0 hq
      unfold shiftOf
      omega
  rcases nearest_cases num den with ⟨-, m, hm, -⟩ | ⟨-, m, hm, -⟩ | ⟨-, hpast | ⟨hlast, hcarry⟩⟩
  · exact ⟨m, hm⟩
  · exact ⟨m, hm⟩
  · omega
  -- A carry at the last shift would round past the largest significand.
  · have hround : roundDiv num (den * twoTo (shiftOf num den)) ≤ 2 * leadingBit - 1 := by
      refine roundDiv_le_of_le_mul (Nat.mul_pos hden (twoTo_pos _)) ?_
      rw [← hlast, Nat.mul_comm den, ← Nat.mul_assoc]
      exact h
    have hlead : 0 < leadingBit := twoTo_pos 52
    omega

theorem nearest_eq_zero {num den : Nat} (h : 2 * num < den) : nearest num den = some zero := by
  have hs : shiftOf num den = 0 := by
    rw [shiftOf, Nat.div_eq_of_lt (by omega), Nat.log2_zero]
  have hr : roundDiv num (den * twoTo (shiftOf num den)) = 0 := by
    rw [hs, show twoTo 0 = 1 from rfl, Nat.mul_one]
    refine roundDiv_eq_of (by omega) ?_ fun _ => rfl
    rw [Nat.zero_mul, Nat.dist_zero_right]
    omega
  rcases nearest_cases num den with ⟨-, m, hm, hshift, hsig⟩ | ⟨hcarry, -⟩ | ⟨-, hpast | ⟨-, hcarry⟩⟩
  · rw [hm]
    cases m
    cases hshift.trans hs
    cases hsig.trans hr
    rfl
  · rw [hr] at hcarry
    cases hcarry
  · rw [hs] at hpast
    cases hpast
  · rw [hr] at hcarry
    cases hcarry

theorem nearest_eq_none {num den : Nat} (hden : 0 < den) (h : twoTo (53 + maxShift) * den ≤ num) :
    nearest num den = none := by
  have hq : twoTo (53 + maxShift) ≤ num / den := (Nat.le_div_iff_mul_le hden).2 h
  have hne : num / den ≠ 0 := by
    have := twoTo_pos (53 + maxShift)
    omega
  have hlog : 53 + maxShift ≤ (num / den).log2 := le_log2_of_le hne hq
  have hshift : maxShift < shiftOf num den := by
    unfold shiftOf
    omega
  rcases nearest_cases num den with ⟨hle, -⟩ | ⟨-, m, -, hm, -⟩ | ⟨hnone, -⟩
  · omega
  · have := m.shift_le
    omega
  · exact hnone

end Magnitude

theorem unitsPerOne_pos : 0 < unitsPerOne := by
  unfold unitsPerOne
  exact twoTo_pos _

theorem ofRatio_of_nearest (negative : Bool) {num den : Nat} {m : Magnitude}
    (h : Magnitude.nearest num den = some m) : ofRatio negative num den = .finite negative m := by
  unfold ofRatio
  rw [h]

theorem ofRatio_of_lt (negative : Bool) {num den : Nat} (h : 2 * num < den) :
    ofRatio negative num den = .zero negative :=
  ofRatio_of_nearest negative (Magnitude.nearest_eq_zero h)

theorem ofRatio_of_le (negative : Bool) {num den : Nat} (hden : 0 < den) (h : twoTo (53 + maxShift) * den ≤ num) :
    ofRatio negative num den = .infinity negative := by
  unfold ofRatio
  rw [Magnitude.nearest_eq_none hden h]

theorem finite_lt_zero_iff (negative : Bool) (m : Magnitude) :
    Binary64.finite negative m < 0 ↔ negative = true ∧ m.units ≠ 0 := by
  have hzero : (0 : Binary64) = .finite false Magnitude.zero := by decide +kernel
  rw [hzero]
  show decide (signedUnits negative m < 0) = true ↔ _
  rw [decide_eq_true_iff]
  cases negative
  · simp [signedUnits]
  · simp [signedUnits, Nat.pos_iff_ne_zero]

end Binary64
end InterestDesk
