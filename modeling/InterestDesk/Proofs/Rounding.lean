import InterestDesk.Rounding
import Mathlib.Data.Nat.Dist
/-!
# Rounding — how far a rounded quotient is off

The law of `roundDiv`: it is at most half a unit off, and even when it is exactly half a unit off.  Only one natural is
like that (`roundDiv_eq_of`), so whatever is nearer to it rounds to it (`roundDiv_eq_of_nearer`), and no natural is
nearer to the quotient (`dist_roundDiv_le`).
-/
namespace InterestDesk

theorem two_mul_dist_roundDiv_le (num : Nat) {den : Nat} (hden : 0 < den) :
    2 * Nat.dist num (roundDiv num den * den) ≤ den := by
  have hu := two_mul_roundDiv_mul_le num den
  have hl := le_two_mul_roundDiv_mul num hden
  unfold Nat.dist
  omega

theorem roundDiv_even (num : Nat) {den : Nat} (hden : 0 < den)
    (htie : 2 * Nat.dist num (roundDiv num den * den) = den) : roundDiv num den % 2 = 0 := by
  have h := Nat.div_add_mod' num den
  have hlt := Nat.mod_lt num hden
  unfold Nat.dist at htie
  simp only [roundDiv] at htie ⊢
  split at htie
  · omega
  · split at htie
    · rw [Nat.add_mul] at htie
      omega
    · rename_i h1 h2
      rw [if_neg h1, if_neg h2]
      omega

/-- Two naturals at most half a unit off the same quotient are neighbours, and the quotient is their tie. -/
theorem tie_of_half_off {num den a b : Nat} (hden : 0 < den) (hlt : a < b) (ha : 2 * Nat.dist num (a * den) ≤ den)
    (hb : 2 * Nat.dist num (b * den) ≤ den) :
    b = a + 1 ∧ 2 * Nat.dist num (a * den) = den ∧ 2 * Nat.dist num (b * den) = den := by
  have hmul := Nat.mul_le_mul_right den hlt
  rw [Nat.succ_mul] at hmul
  unfold Nat.dist at ha hb ⊢
  have hsucc : b * den = (a + 1) * den := by
    rw [Nat.succ_mul]
    omega
  exact ⟨Nat.eq_of_mul_eq_mul_right hden hsucc, by omega, by omega⟩

/-- **Half a unit and the even neighbour pin a rounded quotient down.** -/
theorem roundDiv_eq_of {num den n : Nat} (hden : 0 < den) (hle : 2 * Nat.dist num (n * den) ≤ den)
    (htie : 2 * Nat.dist num (n * den) = den → n % 2 = 0) : roundDiv num den = n := by
  have hr := two_mul_dist_roundDiv_le num hden
  have heven := roundDiv_even num hden
  rcases Nat.lt_trichotomy (roundDiv num den) n with hlt | heq | hlt
  · obtain ⟨hsucc, hrt, hnt⟩ := tie_of_half_off hden hlt hr hle
    have := heven hrt
    have := htie hnt
    omega
  · exact heq
  · obtain ⟨hsucc, hnt, hrt⟩ := tie_of_half_off hden hlt hle hr
    have := heven hrt
    have := htie hnt
    omega

/-- **A number at least as near to a rounded quotient rounds to it too**, at a tie because the quotient is even. -/
theorem roundDiv_eq_of_nearer {num num' den : Nat} (hden : 0 < den)
    (h : Nat.dist num' (roundDiv num den * den) ≤ Nat.dist num (roundDiv num den * den)) :
    roundDiv num' den = roundDiv num den := by
  have hhalf := two_mul_dist_roundDiv_le num hden
  have hle := Nat.mul_le_mul_left 2 h
  refine roundDiv_eq_of hden (Nat.le_trans hle hhalf) fun htie => ?_
  -- A tie of the nearer number is one of the other number, whose quotient is then even.
  rw [htie] at hle
  exact roundDiv_even num hden (Nat.le_antisymm hhalf hle)

/-- **No natural is nearer to a quotient than the rounded one.** -/
theorem dist_roundDiv_le (num : Nat) {den : Nat} (hden : 0 < den) (k : Nat) :
    Nat.dist num (roundDiv num den * den) ≤ Nat.dist num (k * den) := by
  have hr := two_mul_dist_roundDiv_le num hden
  generalize roundDiv num den = r at hr ⊢
  unfold Nat.dist at hr ⊢
  rcases Nat.lt_trichotomy r k with hlt | heq | hlt
  · have := Nat.mul_le_mul_right den hlt
    rw [Nat.succ_mul] at this
    omega
  · rw [heq]
  · have := Nat.mul_le_mul_right den hlt
    rw [Nat.succ_mul] at this
    omega

theorem roundDiv_le_of_le_mul {num den k : Nat} (hden : 0 < den) (h : num ≤ k * den) : roundDiv num den ≤ k := by
  have hr := dist_roundDiv_le num hden k
  unfold Nat.dist at hr
  refine Nat.le_of_not_lt fun hlt => ?_
  have := Nat.mul_le_mul_right den hlt
  rw [Nat.succ_mul] at this
  have htwo := two_mul_dist_roundDiv_le num hden
  unfold Nat.dist at htwo
  omega

end InterestDesk
