import InterestDesk.Binary64.Arithmetic
import InterestDesk.Proofs.Binary64.Rounds
/-!
# Value — doubles not below zero, as exact numbers

`value` reads a finite double as a rational.  On doubles that are not below zero each operation yields the exact
result, rounded once (`Yields`), so it is finite exactly when the exact result is below `overflow`, it never passes a
double that the exact result does not pass (`Yields.le_value`, `Yields.value_le`), and it is off by half a last place
at most (`Yields.abs_sub_le`).
-/
namespace InterestDesk
namespace Binary64

namespace Magnitude

theorem isZero_iff (m : Magnitude) : m.isZero = true ↔ m.units = 0 := by
  unfold isZero units
  rw [beq_iff_eq, Nat.mul_eq_zero, or_iff_left (Nat.ne_of_gt (twoTo_pos _))]

theorem value_nonneg (m : Magnitude) : 0 ≤ m.value :=
  div_nonneg (Nat.cast_nonneg _) (Nat.cast_nonneg _)

theorem value_eq_zero_iff (m : Magnitude) : m.value = 0 ↔ m.units = 0 := by
  have hone : (unitsPerOne : ℚ) ≠ 0 := Nat.cast_ne_zero.2 (Nat.ne_of_gt unitsPerOne_pos)
  unfold value
  rw [div_eq_zero_iff, or_iff_left hone, Nat.cast_eq_zero]

theorem value_le_iff (m other : Magnitude) : m.value ≤ other.value ↔ m.units ≤ other.units := by
  unfold value
  rw [div_le_div_iff_of_pos_right (Nat.cast_pos.2 unitsPerOne_pos), Nat.cast_le]

theorem value_lt_overflow (m : Magnitude) : m.value < overflow := by
  have hle : m.units ≤ maxUnits * 1 := by
    rw [Nat.mul_one]
    exact m.units_le_maxUnits
  obtain ⟨near, hnear⟩ := exists_nearest Nat.one_pos hle
  refine not_le.1 fun hpast => ?_
  have hratio : m.value = (m.units : ℚ) / ((1 : Nat) * unitsPerOne) := by
    rw [Nat.cast_one, one_mul, value]
  rw [hratio, overflow_le_iff _ Nat.one_pos, ← nearest_eq_none_iff Nat.one_pos, hnear] at hpast
  cases hpast

/-- **Rounding moves a quotient by at most its `2^-53`th part, or by half the least unit.** -/
theorem dist_nearest_le_part {num den : Nat} (hden : 0 < den) {m : Magnitude} (h : nearest num den = some m) :
    2 * leadingBit * Nat.dist num (m.units * den) ≤ num ∨ 2 * Nat.dist num (m.units * den) ≤ den := by
  have hround := two_mul_dist_roundDiv_le num (Nat.mul_pos hden (twoTo_pos (shiftOf num den)))
  have hgrid : m.units * den = roundDiv num (den * twoTo (shiftOf num den)) * (den * twoTo (shiftOf num den)) := by
    rw [units_nearest h, Nat.mul_assoc, Nat.mul_comm (twoTo _) den]
  rw [← hgrid] at hround
  rcases Nat.eq_zero_or_pos (shiftOf num den) with hs | hs
  · right
    rwa [hs, show twoTo 0 = 1 from rfl, Nat.mul_one] at hround
  · left
    obtain ⟨-, hnum⟩ := units_le_of_shift_lt (m := .zero) hs
    calc 2 * leadingBit * Nat.dist num (m.units * den)
        = leadingBit * (2 * Nat.dist num (m.units * den)) := by rw [Nat.mul_comm 2, Nat.mul_assoc]
      _ ≤ leadingBit * (den * twoTo (shiftOf num den)) := Nat.mul_le_mul_left _ hround
      _ = leadingBit * twoTo (shiftOf num den) * den := by rw [Nat.mul_comm den, Nat.mul_assoc]
      _ ≤ num := hnum

theorem abs_sub_value_nearest_le {num den : Nat} (hden : 0 < den) {m : Magnitude} (h : nearest num den = some m) :
    |(num : ℚ) / (den * unitsPerOne) - m.value| ≤ (num : ℚ) / (den * unitsPerOne) / 2 ^ 53 + 1 / (2 * unitsPerOne) := by
  have hd : (0 : ℚ) < den := Nat.cast_pos.2 hden
  have hu : (0 : ℚ) < unitsPerOne := Nat.cast_pos.2 unitsPerOne_pos
  rw [abs_sub_value num hden]
  rcases dist_nearest_le_part hden h with hpart | hhalf
  · rw [show 2 * leadingBit = 2 ^ 53 from rfl] at hpart
    have hcast : (2 : ℚ) ^ 53 * (Nat.dist num (m.units * den) : ℚ) ≤ num := by exact_mod_cast hpart
    refine le_add_of_le_of_nonneg ?_ (div_nonneg zero_le_one (mul_pos two_pos hu).le)
    rw [div_right_comm, div_le_div_iff_of_pos_right (mul_pos hd hu), le_div_iff₀ (pow_pos two_pos 53), mul_comm]
    exact hcast
  · have hcast : 2 * (Nat.dist num (m.units * den) : ℚ) ≤ den := by exact_mod_cast hhalf
    have hquotient : 0 ≤ (num : ℚ) / (den * unitsPerOne) / 2 ^ 53 :=
      div_nonneg (div_nonneg (Nat.cast_nonneg _) (mul_pos hd hu).le) (pow_pos two_pos 53).le
    refine le_add_of_nonneg_of_le hquotient ?_
    rw [div_le_div_iff₀ (mul_pos hd hu) (mul_pos two_pos hu), one_mul, ← mul_assoc, mul_comm _ (2 : ℚ)]
    exact mul_le_mul_of_nonneg_right hcast hu.le

end Magnitude

/-- The exact value of a finite double, and zero for any other. -/
def value : Binary64 → ℚ
  | .finite negative m => if negative then -m.value else m.value
  | _ => 0

/-- Whether a double is finite and not below zero; a zero of either sign is not. -/
inductive Nonneg : Binary64 → Prop
  | finite {negative : Bool} {m : Magnitude} (h : negative = true → m.units = 0) : Nonneg (.finite negative m)

theorem value_finite {negative : Bool} {m : Magnitude} (h : negative = true → m.units = 0) :
    (Binary64.finite negative m).value = m.value := by
  cases negative with
  | false => rfl
  | true =>
    have hzero := m.value_eq_zero_iff.2 (h rfl)
    show -m.value = m.value
    rw [hzero, neg_zero]

namespace Nonneg

variable {x : Binary64}

theorem isFinite (h : x.Nonneg) : x.isFinite = true := by
  cases h
  rfl

theorem value_nonneg (h : x.Nonneg) : 0 ≤ x.value := by
  cases h with
  | finite hzero =>
    rw [value_finite hzero]
    exact Magnitude.value_nonneg _

theorem value_lt_overflow (h : x.Nonneg) : x.value < overflow := by
  cases h with
  | finite hzero =>
    rw [value_finite hzero]
    exact Magnitude.value_lt_overflow _

end Nonneg

/-- Whether a double is `q` correctly rounded, for a `q` that is not below zero; only a zero may have a minus sign. -/
def Yields (q : ℚ) (v : Binary64) : Prop :=
  0 ≤ q ∧ ∃ negative, (negative = true → q = 0) ∧ Rounds negative q v

/-- A number that is not below zero as a quotient of whole numbers of units. -/
theorem exists_ratio {q : ℚ} (h : 0 ≤ q) : ∃ num den : Nat, 0 < den ∧ (num : ℚ) / (den * unitsPerOne) = q := by
  have hone : (0 : ℚ) < unitsPerOne := Nat.cast_pos.2 unitsPerOne_pos
  have hnum : 0 ≤ (q * unitsPerOne).num := Rat.num_nonneg.2 (mul_nonneg h hone.le)
  refine ⟨(q * unitsPerOne).num.toNat, (q * unitsPerOne).den, Rat.den_pos _, ?_⟩
  have hcast : (((q * unitsPerOne).num.toNat : Nat) : ℚ) = (q * unitsPerOne).num := by
    rw [← Int.cast_natCast, Int.toNat_of_nonneg hnum]
  rw [hcast, ← div_div, Rat.num_div_den, mul_div_cancel_right₀ _ hone.ne']

namespace Yields

variable {q : ℚ} {v x : Binary64}

/-- **Outcomes of a step**: a finite double not below zero, or plus infinity from `overflow` on. -/
theorem cases (h : Yields q v) : q < overflow ∧ v.Nonneg ∨ overflow ≤ q ∧ v = .infinity false := by
  obtain ⟨-, negative, hsign, hrounds⟩ := h
  cases hrounds with
  | finite m below nearest even =>
    refine .inl ⟨below, .finite fun hnegative => ?_⟩
    have hle := nearest .zero
    have hzero : Magnitude.zero.value = 0 := Magnitude.zero.value_eq_zero_iff.2 rfl
    rw [hsign hnegative, hzero, sub_self, abs_zero, abs_nonpos_iff, zero_sub, neg_eq_zero] at hle
    exact m.value_eq_zero_iff.1 hle
  | infinity past =>
    refine .inr ⟨past, ?_⟩
    have hpos : (0 : ℚ) < overflow := lt_of_le_of_lt Magnitude.zero.value_nonneg Magnitude.zero.value_lt_overflow
    cases negative with
    | false => rfl
    | true =>
      rw [hsign rfl] at past
      exact absurd past (not_le.2 hpos)

theorem isFinite_iff (h : Yields q v) : v.isFinite = true ↔ q < overflow := by
  rcases h.cases with ⟨hlt, hv⟩ | ⟨hle, rfl⟩
  · exact iff_of_true hv.isFinite hlt
  · exact iff_of_false Bool.false_ne_true (not_lt.2 hle)

theorem nonneg (h : Yields q v) (hlt : q < overflow) : v.Nonneg := by
  rcases h.cases with ⟨-, hv⟩ | ⟨hle, -⟩
  · exact hv
  · exact absurd hlt (not_lt.2 hle)

theorem nonneg_of_isFinite (h : Yields q v) (hv : v.isFinite = true) : v.Nonneg :=
  h.nonneg (h.isFinite_iff.1 hv)

/-- No double is nearer to the exact result. -/
theorem abs_sub_le_of_nonneg (h : Yields q v) (hlt : q < overflow) (hx : x.Nonneg) :
    |q - v.value| ≤ |q - x.value| := by
  have hv := h.nonneg hlt
  obtain ⟨-, negative, -, hrounds⟩ := h
  cases hrounds with
  | finite m below nearest even =>
    cases hv with
    | finite hzero =>
      cases hx with
      | finite hzero' =>
        rw [value_finite hzero, value_finite hzero']
        exact nearest _
  | infinity past => exact absurd hlt (not_lt.2 past)

/-- **A rounded result is off by at most the `2^-53`th part of the exact one and half the least unit.** -/
theorem abs_sub_le (h : Yields q v) (hlt : q < overflow) : |q - v.value| ≤ q / 2 ^ 53 + 1 / (2 * unitsPerOne) := by
  have hv := h.nonneg hlt
  obtain ⟨hq, negative, -, hrounds⟩ := h
  obtain ⟨num, den, hden, rfl⟩ := exists_ratio hq
  have hratio := (rounds_iff negative num hden).1 hrounds
  unfold ofRatio at hratio
  cases hnear : Magnitude.nearest num den with
  | none =>
    rw [hnear] at hratio
    subst hratio
    cases hv
  | some m =>
    rw [hnear] at hratio
    subst hratio
    cases hv with
    | finite hzero =>
      rw [value_finite hzero]
      exact Magnitude.abs_sub_value_nearest_le hden hnear

/-- **Rounding does not fall below a double that the exact result has reached.** -/
theorem le_value (h : Yields q v) (hlt : q < overflow) (hx : x.Nonneg) (hle : x.value ≤ q) : x.value ≤ v.value := by
  have hnear := h.abs_sub_le_of_nonneg hlt hx
  rw [abs_of_nonneg (sub_nonneg.2 hle)] at hnear
  have := (abs_le.1 hnear).2
  linarith

/-- **Rounding does not rise above a double that the exact result stays within.** -/
theorem value_le (h : Yields q v) (hx : x.Nonneg) (hle : q ≤ x.value) : v.value ≤ x.value := by
  have hnear := h.abs_sub_le_of_nonneg (lt_of_le_of_lt hle hx.value_lt_overflow) hx
  rw [abs_of_nonpos (sub_nonpos.2 hle)] at hnear
  have := (abs_le.1 hnear).1
  linarith

/-- A double is its own rounding. -/
theorem value_eq (h : Yields x.value v) (hx : x.Nonneg) : v.value = x.value :=
  le_antisymm (h.value_le hx le_rfl) (h.le_value hx.value_lt_overflow hx le_rfl)

end Yields

theorem yields_ofRatio {negative : Bool} {num den : Nat} (hden : 0 < den) (h : negative = true → num = 0) :
    Yields ((num : ℚ) / (den * unitsPerOne)) (ofRatio negative num den) := by
  refine ⟨div_nonneg (Nat.cast_nonneg _) (mul_nonneg (Nat.cast_nonneg _) (Nat.cast_nonneg _)), negative,
    fun hnegative => ?_, (rounds_iff negative num hden).2 rfl⟩
  rw [h hnegative, Nat.cast_zero, zero_div]

theorem yields_ofNat (n : Nat) : Yields n (ofNat n) := by
  have hone : (unitsPerOne : ℚ) ≠ 0 := Nat.cast_ne_zero.2 (Nat.ne_of_gt unitsPerOne_pos)
  have hratio : ((n * unitsPerOne : Nat) : ℚ) / ((1 : Nat) * unitsPerOne) = n := by
    simp only [Nat.cast_mul, Nat.cast_one, one_mul]
    exact mul_div_cancel_right₀ _ hone
  have hplus : false = true → n * unitsPerOne = 0 := fun h => absurd h Bool.false_ne_true
  rw [← hratio]
  exact yields_ofRatio Nat.one_pos hplus

-- Through a variable, so that the power is never evaluated.
theorem twoTo_eq_unitsPerOne {k : Nat} (h : k = 1074) : twoTo k = unitsPerOne := by
  unfold unitsPerOne
  rw [← h]

namespace Magnitude

/-- A whole number of at most 53 binary digits is a magnitude. -/
theorem exists_units_eq_mul {n : Nat} (h : n < 2 * leadingBit) : ∃ m : Magnitude, m.units = n * unitsPerOne := by
  rcases Nat.eq_zero_or_pos n with rfl | hpos
  · exact ⟨.zero, by rw [units, Nat.zero_mul]; exact Nat.zero_mul _⟩
  · have hne := Nat.ne_of_gt hpos
    have hlog : n.log2 ≤ 52 := Nat.le_of_lt_succ (log2_lt_of_lt hne h)
    have hlt : n * twoTo (52 - n.log2) < 2 * leadingBit := by
      have hbits : n < twoTo (n.log2 + 1) := Nat.lt_log2_self
      calc n * twoTo (52 - n.log2) < twoTo (n.log2 + 1) * twoTo (52 - n.log2) :=
            Nat.mul_lt_mul_of_pos_right hbits (twoTo_pos _)
        _ = twoTo 53 := by rw [← twoTo_add, show n.log2 + 1 + (52 - n.log2) = 53 by omega]
    have hle : leadingBit ≤ n * twoTo (52 - n.log2) := by
      calc leadingBit = twoTo n.log2 * twoTo (52 - n.log2) := by
            rw [← twoTo_add, Nat.add_sub_cancel' hlog, leadingBit]
        _ ≤ n * twoTo (52 - n.log2) := Nat.mul_le_mul_right _ (twoTo_log2_le hne)
    have hone : twoTo (52 - n.log2) * twoTo (n.log2 + 1022) = unitsPerOne := by
      rw [← twoTo_add]
      exact twoTo_eq_unitsPerOne (by omega)
    refine ⟨⟨_, n.log2 + 1022, hlt, by unfold maxShift; omega, .inr hle⟩, ?_⟩
    rw [units, Nat.mul_assoc, hone]

end Magnitude

/-- **Whole numbers of at most 53 binary digits are doubles.** -/
theorem ofNat_spec {n : Nat} (h : n < 2 * leadingBit) : (ofNat n).Nonneg ∧ (ofNat n).value = n := by
  obtain ⟨m, hm⟩ := Magnitude.exists_units_eq_mul h
  have hplus : false = true → m.units = 0 := fun h => absurd h Bool.false_ne_true
  have hone : (unitsPerOne : ℚ) ≠ 0 := Nat.cast_ne_zero.2 (Nat.ne_of_gt unitsPerOne_pos)
  have hvalue : (Binary64.finite false m).value = n := by
    rw [value_finite hplus, Magnitude.value, hm, Nat.cast_mul, mul_div_cancel_right₀ _ hone]
  have hyields := yields_ofNat n
  rw [← hvalue] at hyields ⊢
  have hx := Nonneg.finite hplus
  exact ⟨hyields.nonneg hx.value_lt_overflow, hyields.value_eq hx⟩

section Operations

variable (s t : Bool) (a b : Magnitude)

theorem finite_mul : Binary64.finite s a * .finite t b = ofRatio (s != t) (a.units * b.units) unitsPerOne := by
  show mul _ _ = _
  rw [mul]

theorem finite_div (h : b.units ≠ 0) :
    Binary64.finite s a / .finite t b = ofRatio (s != t) (a.units * unitsPerOne) b.units := by
  have hzero : b.isZero = false := Bool.eq_false_iff.2 (mt b.isZero_iff.1 h)
  show div _ _ = _
  rw [div, hzero, if_neg Bool.false_ne_true]

theorem finite_add :
    Binary64.finite s a + .finite t b =
      if s = t then ofRatio s (a.units + b.units) 1
      else if a.units = b.units then zero false
      else if b.units < a.units then ofRatio s (a.units - b.units) 1
      else ofRatio t (b.units - a.units) 1 := by
  show add _ _ = _
  rw [add]

theorem finite_sub : Binary64.finite s a - .finite t b = Binary64.finite s a + .finite (!t) b := by
  show sub _ _ = _
  rw [sub, neg]
  rfl

end Operations

section Signs

variable {s t : Bool} {a b : Magnitude}

theorem exists_finite_add (hs : s = true → a.units = 0) (ht : t = true → b.units = 0) :
    ∃ negative, (negative = true → a.units + b.units = 0) ∧
      Binary64.finite s a + .finite t b = ofRatio negative (a.units + b.units) 1 := by
  rw [finite_add]
  by_cases hst : s = t
  · exact ⟨s, fun h => by rw [hs h, ht (hst ▸ h)], if_pos hst⟩
  · rw [if_neg hst]
    have hzero : a.units = 0 ∨ b.units = 0 := by
      cases s with
      | true => exact .inl (hs rfl)
      | false => exact .inr (ht (by simpa using hst))
    rcases Nat.lt_trichotomy a.units b.units with hlt | heq | hlt
    · have ha : a.units = 0 := hzero.resolve_right (by omega)
      refine ⟨t, fun h => by rw [ha, ht h], ?_⟩
      rw [if_neg (Nat.ne_of_lt hlt), if_neg (Nat.lt_asymm hlt), ha, Nat.sub_zero, Nat.zero_add]
    · have hsum : a.units + b.units = 0 := by omega
      refine ⟨false, fun _ => hsum, ?_⟩
      rw [if_pos heq, hsum]
      exact (ofRatio_of_lt false (by decide)).symm
    · have hb : b.units = 0 := hzero.resolve_left (by omega)
      refine ⟨s, fun h => by rw [hs h, hb], ?_⟩
      rw [if_neg (Nat.ne_of_gt hlt), if_pos hlt, hb, Nat.sub_zero, Nat.add_zero]

theorem exists_finite_sub (hs : s = true → a.units = 0) (ht : t = true → b.units = 0) (hle : b.units ≤ a.units) :
    ∃ negative, (negative = true → a.units - b.units = 0) ∧
      Binary64.finite s a - .finite t b = ofRatio negative (a.units - b.units) 1 := by
  rw [finite_sub, finite_add]
  by_cases hst : s = !t
  · have hb : b.units = 0 := by
      cases t with
      | true => exact ht rfl
      | false => exact Nat.eq_zero_of_le_zero (hs hst ▸ hle)
    refine ⟨s, fun h => by rw [hs h, Nat.zero_sub], ?_⟩
    rw [if_pos hst, hb, Nat.sub_zero, Nat.add_zero]
  · rw [if_neg hst]
    rcases Nat.eq_or_lt_of_le hle with heq | hlt
    · refine ⟨false, fun _ => by rw [heq, Nat.sub_self], ?_⟩
      rw [if_pos heq.symm, heq, Nat.sub_self]
      exact (ofRatio_of_lt false (by decide)).symm
    · refine ⟨s, fun h => by rw [hs h, Nat.zero_sub], ?_⟩
      rw [if_neg (Nat.ne_of_gt hlt), if_pos hlt]

end Signs

/-- A whole number of units, rounded. -/
theorem yields_ofUnits {negative : Bool} {num : Nat} (h : negative = true → num = 0) :
    Yields ((num : ℚ) / unitsPerOne) (ofRatio negative num 1) := by
  have hyields := yields_ofRatio Nat.one_pos h
  simp only [Nat.cast_one, one_mul] at hyields
  exact hyields

section Steps

variable {x y : Binary64}

/-- **A product of doubles not below zero is the exact product, rounded.** -/
theorem Nonneg.yields_mul (hx : x.Nonneg) (hy : y.Nonneg) : Yields (x.value * y.value) (x * y) := by
  cases hx with
  | @finite s a hs =>
    cases hy with
    | @finite t b ht =>
      have hsign : (s != t) = true → a.units * b.units = 0 := by
        intro hne
        rw [Nat.mul_eq_zero]
        cases s with
        | true => exact .inl (hs rfl)
        | false => exact .inr (ht (by simpa using hne))
      have hproduct : ((a.units * b.units : Nat) : ℚ) / (unitsPerOne * unitsPerOne) = a.value * b.value := by
        unfold Magnitude.value
        rw [Nat.cast_mul, div_mul_div_comm]
      rw [value_finite hs, value_finite ht, finite_mul, ← hproduct]
      exact yields_ofRatio unitsPerOne_pos hsign

/-- **A quotient of doubles not below zero is the exact quotient, rounded.** -/
theorem Nonneg.yields_div (hx : x.Nonneg) (hy : y.Nonneg) (hpos : 0 < y.value) :
    Yields (x.value / y.value) (x / y) := by
  cases hx with
  | @finite s a hs =>
    cases hy with
    | @finite t b ht =>
      rw [value_finite ht] at hpos
      have hb : b.units ≠ 0 := fun h => ne_of_gt hpos (b.value_eq_zero_iff.2 h)
      have hplus : t = false := Bool.eq_false_iff.2 fun h => hb (ht h)
      have hsign : (s != t) = true → a.units * unitsPerOne = 0 := by
        intro hne
        rw [hs (by simpa [hplus] using hne), Nat.zero_mul]
      have hone : (unitsPerOne : ℚ) ≠ 0 := Nat.cast_ne_zero.2 (Nat.ne_of_gt unitsPerOne_pos)
      have hquotient : ((a.units * unitsPerOne : Nat) : ℚ) / (b.units * unitsPerOne) = a.value / b.value := by
        unfold Magnitude.value
        rw [Nat.cast_mul, mul_div_mul_right _ _ hone, div_div_div_cancel_right₀ hone]
      rw [value_finite hs, value_finite ht, finite_div s t a b hb, ← hquotient]
      exact yields_ofRatio (Nat.pos_of_ne_zero hb) hsign

/-- **A sum of doubles not below zero is the exact sum, rounded.** -/
theorem Nonneg.yields_add (hx : x.Nonneg) (hy : y.Nonneg) : Yields (x.value + y.value) (x + y) := by
  cases hx with
  | @finite s a hs =>
    cases hy with
    | @finite t b ht =>
      obtain ⟨negative, hsign, hadd⟩ := exists_finite_add hs ht
      have hsum : ((a.units + b.units : Nat) : ℚ) / unitsPerOne = a.value + b.value := by
        unfold Magnitude.value
        rw [Nat.cast_add, add_div]
      rw [value_finite hs, value_finite ht, hadd, ← hsum]
      exact yields_ofUnits hsign

/-- **A difference that is not below zero is the exact difference, rounded.** -/
theorem Nonneg.yields_sub (hx : x.Nonneg) (hy : y.Nonneg) (hle : y.value ≤ x.value) :
    Yields (x.value - y.value) (x - y) := by
  cases hx with
  | @finite s a hs =>
    cases hy with
    | @finite t b ht =>
      rw [value_finite hs, value_finite ht] at hle ⊢
      have hunits := (b.value_le_iff a).1 hle
      obtain ⟨negative, hsign, hsub⟩ := exists_finite_sub hs ht hunits
      have hdifference : ((a.units - b.units : Nat) : ℚ) / unitsPerOne = a.value - b.value := by
        unfold Magnitude.value
        rw [Nat.cast_sub hunits, sub_div]
      rw [hsub, ← hdifference]
      exact yields_ofUnits hsign

theorem isFinite_of_mul (h : (x * y).isFinite = true) : x.isFinite = true ∧ y.isFinite = true := by
  change (mul x y).isFinite = true at h
  unfold mul at h
  split at h
  · cases h
  · cases h
  · cases h
  · split at h
    · cases h
    · cases h
  · split at h
    · cases h
    · cases h
  · exact ⟨rfl, rfl⟩

theorem isFinite_of_div (h : (x / y).isFinite = true) (hy : y.isFinite = true) : x.isFinite = true := by
  change (div x y).isFinite = true at h
  unfold div at h
  split at h
  · cases h
  · cases h
  · cases h
  · cases h
  · rfl
  · rfl

end Steps

/-- Products of whole numbers of together at most 53 binary digits are exact. -/
theorem ofNat_mul_spec {m n : Nat} (hm : m < 2 * leadingBit) (hn : n < 2 * leadingBit) (h : m * n < 2 * leadingBit) :
    (ofNat m * ofNat n).Nonneg ∧ (ofNat m * ofNat n).value = (m * n : Nat) := by
  obtain ⟨hx, hxvalue⟩ := ofNat_spec hm
  obtain ⟨hy, hyvalue⟩ := ofNat_spec hn
  obtain ⟨hproduct, hvalue⟩ := ofNat_spec h
  have hyields := hx.yields_mul hy
  rw [hxvalue, hyvalue, ← Nat.cast_mul, ← hvalue] at hyields
  rw [← hvalue]
  exact ⟨hyields.nonneg hproduct.value_lt_overflow, hyields.value_eq hproduct⟩

end Binary64
end InterestDesk
