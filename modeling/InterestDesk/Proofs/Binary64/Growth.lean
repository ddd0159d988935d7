import InterestDesk.Binary64.Power
import InterestDesk.Proofs.Binary64.Value
/-!
# Growth — a power of one or more is one or more

A base that is not below one has a logarithm that is not below zero (`Magnitude.log2_nonneg`), roots of two are not
below one (`twoTo_le_rootOfTwo`), and a quotient of one or more rounds to one or more (`atLeastOne_nearest`).  So a
power with an exponent that is not below zero is one or more, or past all doubles (`AtLeastOne.pow`).
-/
namespace InterestDesk
namespace Binary64

/-- Whether a double is one or more; plus infinity is. -/
inductive AtLeastOne : Binary64 → Prop
  | finite {m : Magnitude} (h : unitsPerOne ≤ m.units) : AtLeastOne (.finite false m)
  | infinity : AtLeastOne (.infinity false)

/-- Whether a double is not below zero; plus infinity is not. -/
def AtLeastZero (x : Binary64) : Prop :=
  x.Nonneg ∨ x = .infinity false

theorem Yields.atLeastZero {q : ℚ} {v : Binary64} (h : Yields q v) : v.AtLeastZero :=
  h.cases.imp And.right And.right

/-- **An exact result of one or more rounds to one or more.** -/
theorem Yields.atLeastOne {q : ℚ} {v : Binary64} (h : Yields q v) (hq : 1 ≤ q) : v.AtLeastOne := by
  rcases h.cases with ⟨hlt, hv⟩ | ⟨-, rfl⟩
  · obtain ⟨hone, hvalue⟩ := ofNat_spec (n := 1) (by decide)
    rw [Nat.cast_one] at hvalue
    have hle := h.le_value hlt hone (hvalue.le.trans hq)
    rw [hvalue] at hle
    cases hv with
    | @finite negative m hzero =>
      rw [value_finite hzero] at hle
      have hunits : unitsPerOne ≤ m.units := by
        rw [Magnitude.value, one_le_div (Nat.cast_pos.2 unitsPerOne_pos), Nat.cast_le] at hle
        exact hle
      cases negative with
      | false => exact .finite hunits
      | true =>
        have hpos := unitsPerOne_pos
        rw [hzero rfl] at hunits
        omega
  · exact .infinity

theorem AtLeastOne.one_le_value {x : Binary64} (h : x.AtLeastOne) (hx : x.isFinite = true) :
    x.Nonneg ∧ 1 ≤ x.value := by
  cases h with
  | @finite m hunits =>
    refine ⟨.finite fun h => absurd h Bool.false_ne_true, ?_⟩
    show 1 ≤ m.value
    rw [Magnitude.value, one_le_div (Nat.cast_pos.2 unitsPerOne_pos), Nat.cast_le]
    exact hunits
  | infinity => cases hx

theorem atLeastOne_one : AtLeastOne 1 :=
  (yields_ofNat 1).atLeastOne (by rw [Nat.cast_one])

/-- A quotient of one or more, rounded. -/
theorem atLeastOne_nearest {num den : Nat} (hden : 0 < den) (h : unitsPerOne * den ≤ num) :
    AtLeastOne (ofMagnitude? false (Magnitude.nearest num den)) := by
  have hplus : false = true → num = 0 := fun h => absurd h Bool.false_ne_true
  have hquotient : (1 : ℚ) ≤ (num : ℚ) / (den * unitsPerOne) := by
    rw [one_le_div (mul_pos (Nat.cast_pos.2 hden) (Nat.cast_pos.2 unitsPerOne_pos)), mul_comm, ← Nat.cast_mul,
      Nat.cast_le]
    exact h
  exact (yields_ofRatio hden hplus).atLeastOne hquotient

theorem twoTo_le_rootOfTwo (n f : Nat) : twoTo workBits ≤ rootOfTwo n f := by
  induction n generalizing f with
  | zero => exact Nat.le_refl _
  | succ n ih =>
    have hrest := ih (f % twoTo n)
    unfold rootOfTwo
    refine Nat.le_sqrt.2 (Nat.mul_le_mul_right _ ?_)
    split
    · omega
    · exact hrest

theorem mul_pow_pred_le {a b n : Nat} (h : a ≤ b) (hn : 0 < n) : a * Nat.pow a (n - 1) ≤ Nat.pow b n := by
  obtain ⟨k, rfl⟩ := Nat.exists_eq_add_of_le' hn
  rw [Nat.add_sub_cancel, Nat.mul_comm]
  exact Nat.pow_le_pow_left h (k + 1)

namespace Magnitude

theorem log2_nonneg {m : Magnitude} (h : unitsPerOne ≤ m.units) : 0 ≤ m.log2 := by
  have hlt : m.units < twoTo (m.significand.log2 + 1 + m.shift) := by
    rw [twoTo_add, units]
    exact Nat.mul_lt_mul_of_pos_right Nat.lt_log2_self (twoTo_pos _)
  have hwhole : 1074 ≤ m.significand.log2 + m.shift := by
    refine Nat.le_of_not_lt fun hlow => ?_
    have hle : twoTo (m.significand.log2 + 1 + m.shift) ≤ unitsPerOne := by
      unfold unitsPerOne
      exact twoTo_le_twoTo (by omega)
    exact Nat.lt_irrefl _ (Nat.lt_of_le_of_lt h (Nat.lt_of_lt_of_le hlt hle))
  unfold log2
  dsimp only
  refine Int.add_nonneg (Int.mul_nonneg ?_ (Int.natCast_nonneg _)) (Int.natCast_nonneg _)
  omega

/-- **A power of two with an exponent that is not below zero is one or more.** -/
theorem atLeastOne_exp2 {e : Int} (h : 0 ≤ e) : AtLeastOne (ofMagnitude? false (exp2 e)) := by
  have hwhole : 0 ≤ e / (twoTo (logBits + 1074) : Nat) := Int.ediv_nonneg h (Int.natCast_nonneg _)
  unfold exp2
  dsimp only
  generalize e / (twoTo (logBits + 1074) : Nat) = whole at hwhole ⊢
  generalize (e % (twoTo (logBits + 1074) : Nat)).toNat / twoTo (logBits + 1074 - rootBits) = fraction
  split
  · exact .infinity
  · rw [if_neg (by omega)]
    refine atLeastOne_nearest (twoTo_pos _) ?_
    calc unitsPerOne * twoTo (workBits + 1200 - 1074)
        = twoTo workBits * twoTo 1200 := by
          obtain ⟨k, hk⟩ : ∃ k, k = 1074 := ⟨_, rfl⟩
          have hle : k ≤ workBits + 1200 := by rw [hk]; decide
          rw [← hk, ← twoTo_eq_unitsPerOne hk, ← twoTo_add, ← twoTo_add, Nat.add_sub_cancel' hle]
      _ ≤ rootOfTwo rootBits fraction * twoTo (whole + 1200).toNat :=
          Nat.mul_le_mul (twoTo_le_rootOfTwo _ _) (twoTo_le_twoTo (by omega))

theorem atLeastOne_pow {x y : Magnitude} (h : unitsPerOne ≤ x.units) :
    AtLeastOne (ofMagnitude? false (x.pow false y)) := by
  unfold pow
  dsimp only
  split
  · rename_i hexact
    have hpos : 0 < y.units / unitsPerOne := by
      simp only [Bool.and_eq_true, decide_eq_true_eq] at hexact
      exact hexact.1.2
    exact atLeastOne_nearest (Nat.pow_pos unitsPerOne_pos) (mul_pow_pred_le h hpos)
  · refine atLeastOne_exp2 (Int.mul_nonneg (log2_nonneg h) ?_)
    exact Int.natCast_nonneg _

end Magnitude

theorem AtLeastOne.powInfinity {x : Binary64} (h : x.AtLeastOne) : (powInfinity x false).AtLeastOne := by
  cases h with
  | @finite m hunits =>
    unfold Binary64.powInfinity
    dsimp only
    split
    · exact atLeastOne_one
    · rename_i hne
      rw [decide_eq_true (Nat.lt_of_le_of_ne hunits (Ne.symm hne))]
      exact .infinity
  | infinity => exact .infinity

theorem AtLeastOne.powFinite {x : Binary64} (h : x.AtLeastOne) (y : Magnitude) :
    (powFinite x false y).AtLeastOne := by
  cases h with
  | @finite m hunits =>
    have hne : m.units ≠ 0 := Nat.ne_of_gt (Nat.lt_of_lt_of_le unitsPerOne_pos hunits)
    have hzero : m.isZero = false := Bool.eq_false_iff.2 (mt m.isZero_iff.1 hne)
    unfold Binary64.powFinite
    dsimp only
    rw [hzero]
    exact Magnitude.atLeastOne_pow hunits
  | infinity => exact .infinity

/-- **A base of one or more has no power below one**, unless the exponent is below zero. -/
theorem AtLeastOne.pow {x y : Binary64} (hx : x.AtLeastOne) (hy : y.AtLeastZero) : (x ^ y).AtLeastOne := by
  rcases hy with hy | rfl
  · cases hy with
    | @finite negative m hsign =>
      show (if m.isZero then 1 else Binary64.powFinite x negative m).AtLeastOne
      split
      · exact atLeastOne_one
      · rename_i hne
        cases negative with
        | false => exact hx.powFinite m
        | true => exact absurd (m.isZero_iff.2 (hsign rfl)) hne
  · exact hx.powInfinity

end Binary64
end InterestDesk
