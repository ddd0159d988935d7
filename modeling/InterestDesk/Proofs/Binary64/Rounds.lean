import InterestDesk.Proofs.Binary64.Nearest
import Mathlib.Algebra.Order.Field.Rat
import Mathlib.Algebra.Order.Field.Basic
import Mathlib.Tactic.FieldSimp
import Mathlib.Tactic.Linarith
import Mathlib.Tactic.Ring
/-!
# Rounds — correct rounding, said without an algorithm

`Rounds` says of an exact value and a double that the double is nearest to the value, a tie going to the even
significand, and that a value half a last place past the largest double is past them all.  Only one double is like that
(`IsNearest.unique`): two equally near ones would be neighbours, and of two neighbours one is odd.  It is the one that
`Binary64.ofRatio` gives (`rounds_iff`).
-/
namespace InterestDesk

theorem abs_natCast_sub (a b : Nat) : |(a : ℚ) - b| = (Nat.dist a b : ℚ) := by
  rcases Nat.le_total a b with h | h
  · rw [Nat.dist_eq_sub_of_le h, Nat.cast_sub h, abs_sub_comm, abs_of_nonneg]
    exact sub_nonneg.2 (Nat.cast_le.2 h)
  · rw [Nat.dist_eq_sub_of_le_right h, Nat.cast_sub h, abs_of_nonneg]
    exact sub_nonneg.2 (Nat.cast_le.2 h)

namespace Binary64
namespace Magnitude

theorem units_lt_leadingBit_mul {m : Magnitude} {k : Nat} (h : m.shift < k) : m.units < leadingBit * twoTo k :=
  calc m.units < 2 * leadingBit * twoTo m.shift := m.units_lt
    _ = leadingBit * twoTo (m.shift + 1) := by
      rw [twoTo_add, show twoTo 1 = 2 from rfl, Nat.mul_comm (twoTo _), ← Nat.mul_assoc, Nat.mul_comm leadingBit]
    _ ≤ leadingBit * twoTo k := Nat.mul_le_mul_left _ (twoTo_le_twoTo h)

theorem units_lt_of_shift_lt {m other : Magnitude} (h : m.shift < other.shift) : m.units < other.units := by
  have hlead : leadingBit ≤ other.significand := other.canonical.resolve_left (by omega)
  exact Nat.lt_of_lt_of_le (units_lt_leadingBit_mul h) (Nat.mul_le_mul_right _ hlead)

theorem units_injective {m other : Magnitude} (h : m.units = other.units) : m = other := by
  have hshift : m.shift = other.shift := by
    rcases Nat.lt_trichotomy m.shift other.shift with hlt | heq | hlt
    · have := units_lt_of_shift_lt hlt
      omega
    · exact heq
    · have := units_lt_of_shift_lt hlt
      omega
  have hsignificand : m.significand = other.significand := by
    unfold units at h
    rw [hshift] at h
    exact Nat.eq_of_mul_eq_mul_right (twoTo_pos _) h
  cases m
  cases other
  cases hshift
  cases hsignificand
  rfl

/-- **The next magnitude is at least one last place away.** -/
theorem add_twoTo_shift_le {m other : Magnitude} (h : m.units < other.units) :
    m.units + twoTo m.shift ≤ other.units := by
  have hshift : m.shift ≤ other.shift := by
    rcases Nat.lt_or_ge other.shift m.shift with hlt | hge
    · have := units_lt_of_shift_lt hlt
      omega
    · exact hge
  obtain ⟨gap, hgap⟩ := Nat.exists_eq_add_of_le hshift
  have hother : other.units = other.significand * twoTo gap * twoTo m.shift := by
    unfold units
    rw [hgap, Nat.add_comm, twoTo_add, Nat.mul_assoc]
  rw [hother] at h ⊢
  unfold units at h ⊢
  rw [← Nat.succ_mul]
  exact Nat.mul_le_mul_right _ (Nat.lt_of_mul_lt_mul_right h)

/-- The magnitude one last place above. -/
def succ (m : Magnitude) (h : m.significand + 1 < 2 * leadingBit) : Magnitude :=
  ⟨m.significand + 1, m.shift, h, m.shift_le, m.canonical.imp_right fun hle => Nat.le_succ_of_le hle⟩

theorem units_succ (m : Magnitude) (h : m.significand + 1 < 2 * leadingBit) :
    (m.succ h).units = m.units + twoTo m.shift :=
  Nat.succ_mul _ _

/-- Whether no magnitude is nearer to a quotient, and only an even one has another as near. -/
structure IsNearest (num den : Nat) (m : Magnitude) : Prop where
  dist_le : ∀ other : Magnitude, Nat.dist num (m.units * den) ≤ Nat.dist num (other.units * den)
  even : ∀ other : Magnitude, other ≠ m → Nat.dist num (other.units * den) = Nat.dist num (m.units * den) →
    m.significand % 2 = 0

theorem IsNearest.not_lt {num den : Nat} (hden : 0 < den) {m other : Magnitude} (h : IsNearest num den m)
    (hother : IsNearest num den other) : ¬ m.units < other.units := by
  intro hlt
  have htie := Nat.le_antisymm (hother.dist_le m) (h.dist_le other)
  have heven := h.even other (fun heq => by rw [heq] at hlt; exact Nat.lt_irrefl _ hlt) htie
  have hroom : m.significand + 1 < 2 * leadingBit := by
    have := m.significand_lt
    omega
  have hnext := h.dist_le (m.succ hroom)
  have hle : (m.succ hroom).units ≤ other.units := by
    rw [units_succ]
    exact add_twoTo_shift_le hlt
  have hpos : m.units < (m.succ hroom).units := by
    rw [units_succ]
    exact Nat.lt_add_of_pos_right (twoTo_pos _)
  have hsucc : (m.succ hroom).units = other.units := by
    have hmul := Nat.mul_lt_mul_of_pos_right hpos hden
    have hmul' := Nat.mul_le_mul_right den hle
    unfold Nat.dist at htie hnext
    exact Nat.eq_of_mul_eq_mul_right hden (by omega)
  have hodd := hother.even m (fun heq => by rw [heq] at hlt; exact Nat.lt_irrefl _ hlt) htie.symm
  rw [← units_injective hsucc] at hodd
  have : (m.succ hroom).significand = m.significand + 1 := rfl
  omega

/-- **There is one nearest magnitude at most.** -/
theorem IsNearest.unique {num den : Nat} (hden : 0 < den) {m other : Magnitude} (h : IsNearest num den m)
    (hother : IsNearest num den other) : m = other :=
  units_injective (Nat.le_antisymm (Nat.le_of_not_lt (hother.not_lt hden h)) (Nat.le_of_not_lt (h.not_lt hden hother)))

/-- **What `nearest` gives is nearest, and even at a tie.** -/
theorem isNearest_nearest {num den : Nat} (hden : 0 < den) {m : Magnitude} (h : nearest num den = some m) :
    IsNearest num den m := by
  refine ⟨dist_nearest_le hden h, fun other hne htie => ?_⟩
  have hpos : 0 < den * twoTo (shiftOf num den) := Nat.mul_pos hden (twoTo_pos _)
  rcases nearest_cases num den with ⟨-, m', hm, hshift, hsig⟩ | ⟨-, m', hm, -, hsig⟩ | ⟨hnone, -⟩
  · cases hm.symm.trans h
    rw [hsig]
    apply roundDiv_even num hpos
    have hround := two_mul_dist_roundDiv_le num hpos
    have hgrid : m.units * den = roundDiv num (den * twoTo (shiftOf num den)) * (den * twoTo (shiftOf num den)) := by
      rw [units_nearest h, Nat.mul_assoc, Nat.mul_comm (twoTo _) den]
    rw [hgrid] at htie
    rcases Nat.lt_or_ge other.shift (shiftOf num den) with hlt | hge
    -- A magnitude of a smaller shift is farther off than the leading bit, and that is no nearer than the rounded one.
    · obtain ⟨-, hnum⟩ := units_le_of_shift_lt hlt
      have hless := Nat.mul_lt_mul_of_pos_right (units_lt_leadingBit_mul hlt) hden
      have hlead := dist_roundDiv_le num hpos leadingBit
      rw [show leadingBit * (den * twoTo (shiftOf num den)) = leadingBit * twoTo (shiftOf num den) * den by
        rw [Nat.mul_comm den, Nat.mul_assoc]] at hlead
      unfold Nat.dist at htie hlead ⊢
      omega
    · obtain ⟨gap, hgap⟩ := Nat.exists_eq_add_of_le hge
      have hother : other.units * den = other.significand * twoTo gap * (den * twoTo (shiftOf num den)) := by
        unfold units
        rw [hgap, Nat.add_comm, twoTo_add, ← Nat.mul_assoc, Nat.mul_assoc _ (twoTo _) den, Nat.mul_comm (twoTo _) den]
      have hne' : other.significand * twoTo gap ≠ roundDiv num (den * twoTo (shiftOf num den)) := by
        intro heq
        rw [heq, ← hgrid] at hother
        exact hne (units_injective (Nat.eq_of_mul_eq_mul_right hden hother))
      have hhalf := hround
      rw [hother] at htie
      rw [← htie] at hhalf
      rcases Nat.lt_or_gt_of_ne hne' with hlt | hlt
      · exact (tie_of_half_off hpos hlt hhalf hround).2.2
      · exact (tie_of_half_off hpos hlt hround hhalf).2.1
  · cases hm.symm.trans h
    rw [hsig]
    rfl
  · rw [hnone] at h
    cases h

/-- **No magnitude is nearest exactly from half a last place past the largest one on.** -/
theorem nearest_eq_none_iff {num den : Nat} (hden : 0 < den) :
    nearest num den = none ↔ (4 * leadingBit - 1) * (den * twoTo maxShift) ≤ 2 * num := by
  have hlead : 0 < leadingBit := twoTo_pos 52
  have hpos : 0 < den * twoTo (shiftOf num den) := Nat.mul_pos hden (twoTo_pos _)
  constructor
  · intro hnone
    rcases nearest_cases num den with ⟨-, m, hm, -⟩ | ⟨-, m, hm, -⟩ | ⟨-, hpast | ⟨hlast, hcarry⟩⟩
    · rw [hm] at hnone
      cases hnone
    · rw [hm] at hnone
      cases hnone
    · have hlog : 53 + maxShift ≤ (num / den).log2 := by
        unfold shiftOf at hpast
        omega
      have hne : num / den ≠ 0 := by
        intro h0
        rw [h0, Nat.log2_zero] at hlog
        omega
      have hnum := Nat.le_trans (Nat.mul_le_mul_right den (Nat.le_trans (twoTo_le_twoTo hlog) (twoTo_log2_le hne)))
        (Nat.div_mul_le_self num den)
      calc (4 * leadingBit - 1) * (den * twoTo maxShift)
          ≤ 4 * leadingBit * (den * twoTo maxShift) := Nat.mul_le_mul_right _ (Nat.sub_le _ _)
        _ = 2 * (twoTo (53 + maxShift) * den) := by
          rw [twoTo_add, show twoTo 53 = 2 * leadingBit from rfl]
          ring
        _ ≤ 2 * num := Nat.mul_le_mul_left 2 hnum
    · have hle := two_mul_roundDiv_mul_le num (den * twoTo (shiftOf num den))
      rw [hcarry, ← hlast] at hle
      rw [Nat.sub_mul, Nat.one_mul, Nat.sub_le_iff_le_add]
      refine Nat.le_trans (Nat.le_of_eq ?_) hle
      ring
  · intro hpast
    have hround := le_two_mul_roundDiv_mul num hpos
    rcases nearest_cases num den with ⟨hshift, m, -, -, hsig⟩ | ⟨hcarry, m, -, hshift, -⟩ | ⟨hnone, -⟩
    -- Only at the largest shift is the quotient large enough, and there the rounded one would be odd at a tie.
    · exfalso
      have hlt := m.significand_lt
      rw [hsig] at hlt
      have hmono := Nat.mul_le_mul_left den (twoTo_le_twoTo hshift)
      have hlarge : (4 * leadingBit - 1) * (den * twoTo (shiftOf num den)) ≤ 2 * num :=
        Nat.le_trans (Nat.mul_le_mul_left _ hmono) hpast
      have hlast : roundDiv num (den * twoTo (shiftOf num den)) + 1 = 2 * leadingBit := by
        have hle : 4 * leadingBit - 1 ≤ 2 * roundDiv num (den * twoTo (shiftOf num den)) + 1 := by
          refine Nat.le_of_mul_le_mul_right (Nat.le_trans hlarge ?_) hpos
          exact Nat.le_trans hround (Nat.le_of_eq (by ring))
        omega
      have htie : 2 * Nat.dist num (roundDiv num (den * twoTo (shiftOf num den)) * (den * twoTo (shiftOf num den))) =
          den * twoTo (shiftOf num den) := by
        rw [show 4 * leadingBit - 1 = 2 * roundDiv num (den * twoTo (shiftOf num den)) + 1 by omega, Nat.add_mul,
          Nat.one_mul, Nat.mul_assoc] at hlarge
        unfold Nat.dist
        omega
      have heven := roundDiv_even num hpos htie
      omega
    · exfalso
      have hmono := Nat.mul_le_mul_left den (twoTo_le_twoTo (hshift ▸ m.shift_le))
      rw [twoTo_add, show twoTo 1 = 2 from rfl, ← Nat.mul_assoc] at hmono
      have hle := Nat.le_trans (Nat.mul_le_mul_left (4 * leadingBit - 1) hmono) (Nat.le_trans hpast hround)
      rw [hcarry] at hle
      have hcancel : (4 * leadingBit - 1) * 2 ≤ 4 * leadingBit + 1 := by
        refine Nat.le_of_mul_le_mul_right ?_ hpos
        refine Nat.le_trans (Nat.le_of_eq ?_) (Nat.le_trans hle (Nat.le_of_eq ?_))
        · rw [Nat.mul_assoc, Nat.mul_comm 2]
        · ring
      omega
    · exact hnone

/-- The exact value of a magnitude. -/
def value (m : Magnitude) : ℚ :=
  m.units / unitsPerOne

theorem abs_sub_value (num : Nat) {den : Nat} (hden : 0 < den) (m : Magnitude) :
    |(num : ℚ) / (den * unitsPerOne) - m.value| = (Nat.dist num (m.units * den) : ℚ) / (den * unitsPerOne) := by
  have hd : (0 : ℚ) < den := Nat.cast_pos.2 hden
  have hu : (0 : ℚ) < unitsPerOne := Nat.cast_pos.2 unitsPerOne_pos
  have hsub : (num : ℚ) / (den * unitsPerOne) - m.value =
      ((num : ℚ) - ((m.units * den : Nat) : ℚ)) / (den * unitsPerOne) := by
    unfold value
    rw [Nat.cast_mul]
    field_simp
  rw [hsub, abs_div, abs_natCast_sub, abs_of_pos (mul_pos hd hu)]

end Magnitude

/-- Half a last place past the largest double. -/
def overflow : ℚ :=
  2 ^ 1024 - 2 ^ 970

/-- A double is `±q` correctly rounded: nearest, at a tie the one with the even significand, with the sign kept; an
infinity from `overflow` on. -/
inductive Rounds (negative : Bool) (q : ℚ) : Binary64 → Prop
  | finite (m : Magnitude) (below : q < overflow) (nearest : ∀ other : Magnitude, |q - m.value| ≤ |q - other.value|)
      (even : ∀ other : Magnitude, other ≠ m → |q - other.value| = |q - m.value| → m.significand % 2 = 0) :
      Rounds negative q (.finite negative m)
  | infinity (past : overflow ≤ q) : Rounds negative q (.infinity negative)

theorem overflow_mul : (4 * leadingBit - 1) * twoTo maxShift + 2 * unitsPerOne * twoTo 970 =
    2 * unitsPerOne * twoTo 1024 := by
  decide +kernel

theorem overflow_le_iff (num : Nat) {den : Nat} (hden : 0 < den) :
    overflow ≤ (num : ℚ) / (den * unitsPerOne) ↔ (4 * leadingBit - 1) * (den * twoTo maxShift) ≤ 2 * num := by
  have hd : (0 : ℚ) < den := Nat.cast_pos.2 hden
  have hu : (0 : ℚ) < unitsPerOne := Nat.cast_pos.2 unitsPerOne_pos
  have hscaled : overflow * (2 * unitsPerOne) = (((4 * leadingBit - 1) * twoTo maxShift : Nat) : ℚ) := by
    have hcast : ∀ n, ((twoTo n : Nat) : ℚ) = 2 ^ n := fun n => Nat.cast_pow 2 n
    have h := congrArg (Nat.cast (R := ℚ)) overflow_mul
    rw [Nat.cast_add, Nat.cast_mul (2 * unitsPerOne), Nat.cast_mul (2 * unitsPerOne), Nat.cast_mul 2 unitsPerOne,
      hcast, hcast, Nat.cast_two] at h
    unfold overflow
    rw [sub_mul, mul_comm, mul_comm (2 ^ 970 : ℚ), ← h, add_sub_cancel_right]
  rw [le_div_iff₀ (mul_pos hd hu), ← Nat.cast_le (α := ℚ)]
  have hleft : (((4 * leadingBit - 1) * (den * twoTo maxShift) : Nat) : ℚ) = 2 * (overflow * (den * unitsPerOne)) := by
    rw [mul_left_comm, Nat.cast_mul, ← hscaled]
    ring
  rw [hleft, Nat.cast_mul, Nat.cast_two]
  exact (mul_le_mul_iff_of_pos_left two_pos).symm

/-- **What `ofRatio` gives is the correctly rounded value, and nothing else is.** -/
theorem rounds_iff (negative : Bool) (num : Nat) {den : Nat} (hden : 0 < den) {v : Binary64} :
    Rounds negative ((num : ℚ) / (den * unitsPerOne)) v ↔ ofRatio negative num den = v := by
  have hpos : (0 : ℚ) < den * unitsPerOne := mul_pos (Nat.cast_pos.2 hden) (Nat.cast_pos.2 unitsPerOne_pos)
  have hnone : Magnitude.nearest num den = none ↔ overflow ≤ (num : ℚ) / (den * unitsPerOne) :=
    (Magnitude.nearest_eq_none_iff hden).trans (overflow_le_iff num hden).symm
  have hle : ∀ m other : Magnitude, |(num : ℚ) / (den * unitsPerOne) - m.value| ≤
      |(num : ℚ) / (den * unitsPerOne) - other.value| ↔
        Nat.dist num (m.units * den) ≤ Nat.dist num (other.units * den) := by
    intro m other
    rw [Magnitude.abs_sub_value num hden, Magnitude.abs_sub_value num hden, div_le_div_iff_of_pos_right hpos,
      Nat.cast_le]
  have heq : ∀ m other : Magnitude, |(num : ℚ) / (den * unitsPerOne) - m.value| =
      |(num : ℚ) / (den * unitsPerOne) - other.value| ↔
        Nat.dist num (m.units * den) = Nat.dist num (other.units * den) := by
    intro m other
    rw [le_antisymm_iff, hle, hle, Nat.le_antisymm_iff]
  constructor
  · intro h
    cases h with
    | finite m below nearest even =>
      obtain ⟨near, hnear⟩ := Option.ne_none_iff_exists'.1 (mt hnone.1 (not_le.2 below))
      have hm : Magnitude.IsNearest num den m :=
        ⟨fun other => (hle m other).1 (nearest other), fun other hne htie => even other hne ((heq other m).2 htie)⟩
      rw [hm.unique hden (Magnitude.isNearest_nearest hden hnear)]
      exact ofRatio_of_nearest negative hnear
    | infinity past =>
      unfold ofRatio
      rw [hnone.2 past]
  · rintro rfl
    unfold ofRatio
    cases hnear : Magnitude.nearest num den with
    | none => exact .infinity (hnone.1 hnear)
    | some m =>
      have hm := Magnitude.isNearest_nearest hden hnear
      refine .finite m (not_le.1 fun hpast => ?_) (fun other => (hle m other).2 (hm.dist_le other))
        fun other hne htie => hm.even other hne ((heq other m).1 htie)
      rw [hnone.2 hpast] at hnear
      cases hnear

end Binary64
end InterestDesk
