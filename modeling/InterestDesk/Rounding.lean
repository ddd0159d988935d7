/-!
# Rounding — the natural nearest to a quotient

`roundDiv num den` is `num / den` to the nearest natural, a tie going to the even neighbour.  It lies between the
floor and one above it, it keeps every natural bound of the quotient, and it is at most half a unit off.
-/
namespace InterestDesk

/-- The natural nearest to `num / den`; of two equally near ones, the even one. -/
def roundDiv (num den : Nat) : Nat :=
  let floor := num / den
  let twice := 2 * (num % den)
  if twice < den then floor
  else if den < twice then floor + 1
  else floor + floor % 2

theorem div_le_roundDiv (num den : Nat) : num / den ≤ roundDiv num den := by
  simp only [roundDiv]
  split
  · omega
  · split <;> omega

theorem roundDiv_le_div_add_one (num den : Nat) : roundDiv num den ≤ num / den + 1 := by
  simp only [roundDiv]
  split
  · omega
  · split <;> omega

theorem le_roundDiv {k num den : Nat} (h : k ≤ num / den) : k ≤ roundDiv num den :=
  Nat.le_trans h (div_le_roundDiv num den)

theorem roundDiv_le {k num den : Nat} (h : num / den < k) : roundDiv num den ≤ k :=
  Nat.le_trans (roundDiv_le_div_add_one num den) h

/-- The rounded quotient is at most half a unit above the quotient. -/
theorem two_mul_roundDiv_mul_le (num den : Nat) : 2 * (roundDiv num den * den) ≤ 2 * num + den := by
  have h := Nat.div_add_mod' num den
  simp only [roundDiv]
  split
  · omega
  · split
    · rw [Nat.add_mul]; omega
    · rcases Nat.mod_two_eq_zero_or_one (num / den) with hp | hp
      · rw [hp, Nat.add_zero]; omega
      · rw [hp, Nat.add_mul]; omega

/-- The rounded quotient is at most half a unit below the quotient. -/
theorem le_two_mul_roundDiv_mul {den : Nat} (num : Nat) (hden : 0 < den) :
    2 * num ≤ 2 * (roundDiv num den * den) + den := by
  have h := Nat.div_add_mod' num den
  have hlt := Nat.mod_lt num hden
  simp only [roundDiv]
  split
  · omega
  · split
    · rw [Nat.add_mul]; omega
    · rcases Nat.mod_two_eq_zero_or_one (num / den) with hp | hp
      · rw [hp, Nat.add_zero]; omega
      · rw [hp, Nat.add_mul]; omega

end InterestDesk
