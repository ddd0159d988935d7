import InterestDesk.Proofs.Binary64.Rounds
import InterestDesk.Proofs.Decimal.Amount
import InterestDesk.Proofs.Decimal.RoundTrip
/-!
# Rendering — which amount a double is printed as

A double is printed as the amount that `Amount.Renders` describes without an algorithm: its digits are the double's
magnitude rounded half to even, none of them is a redundant zero in front, and it has a sign exactly if the double is
below zero and does not round to zero.  There is one such amount (`Amount.Renders.unique`), since digits without
redundant zeros are those of their number (`digits_ofDigitChars`), and groups of three can be cut in one way only.  It
is the one printed, with any separator (`formatGrouped_renders`).
-/
namespace InterestDesk

/-- A natural at most half a unit off a number, and even if it is exactly half a unit off. -/
structure HalfEven (q : ℚ) (n : Nat) : Prop where
  near : |q - n| ≤ 1 / 2
  even : |q - n| = 1 / 2 → n % 2 = 0

/-- **`roundDiv` gives the one natural that a quotient is rounded to.** -/
theorem halfEven_iff (num : Nat) {den : Nat} (hden : 0 < den) {n : Nat} :
    HalfEven ((num : ℚ) / den) n ↔ roundDiv num den = n := by
  have hd : (0 : ℚ) < den := Nat.cast_pos.2 hden
  have habs : ∀ k : Nat, |(num : ℚ) / den - k| = (Nat.dist num (k * den) : ℚ) / den := by
    intro k
    rw [← abs_natCast_sub, Nat.cast_mul, ← abs_of_pos hd, ← abs_div, abs_of_pos hd, sub_div,
      mul_div_cancel_right₀ _ hd.ne']
  have hle : ∀ k : Nat, |(num : ℚ) / den - k| ≤ 1 / 2 ↔ 2 * Nat.dist num (k * den) ≤ den := by
    intro k
    rw [habs, div_le_div_iff₀ hd two_pos, one_mul, mul_comm, ← Nat.cast_two, ← Nat.cast_mul, Nat.cast_le]
  have heq : ∀ k : Nat, |(num : ℚ) / den - k| = 1 / 2 ↔ 2 * Nat.dist num (k * den) = den := by
    intro k
    rw [habs, div_eq_div_iff hd.ne' two_ne_zero, one_mul, mul_comm, ← Nat.cast_two, ← Nat.cast_mul, Nat.cast_inj]
  constructor
  · rintro ⟨hnear, heven⟩
    exact roundDiv_eq_of hden ((hle n).1 hnear) fun h => heven ((heq n).2 h)
  · rintro rfl
    exact ⟨(hle _).2 (two_mul_dist_roundDiv_le num hden), fun h => roundDiv_even num hden ((heq _).1 h)⟩

namespace Decimal

open Binary64 (Magnitude unitsPerOne unitsPerOne_pos)

theorem digitChar_of_isDigit {c : Char} (h : c.isDigit = true) : (c.toNat - '0'.toNat).digitChar = c := by
  have hlow := (Char.isDigit_iff_toNat.1 h).1
  apply Char.toNat_inj.1
  rw [Nat.toNat_digitChar_of_lt_ten (Nat.lt_succ_of_le (digit_le_nine h))]
  have h0 : '0'.toNat = 48 := rfl
  omega

/-- Digits behind a positive number are the digits of the longer number. -/
theorem digits_append {s : List Char} (h : ∀ c ∈ s, c.isDigit = true) {n : Nat} (hn : 0 < n) :
    digits n ++ s = digits (Nat.ofDigitChars 10 s n) := by
  induction s generalizing n with
  | nil => rw [List.append_nil, Nat.ofDigitChars_nil]
  | cons c s ih =>
    rw [List.forall_mem_cons] at h
    have hc : digits (c.toNat - '0'.toNat) = [c] := by
      rw [digits, Nat.toDigits_of_lt_base (Nat.lt_succ_of_le (digit_le_nine h.1)), digitChar_of_isDigit h.1]
    have hstep : digits n ++ [c] = digits (10 * n + (c.toNat - '0'.toNat)) := by
      rw [← hc]
      exact Nat.toDigits_append_toDigits (by decide) hn (Nat.lt_succ_of_le (digit_le_nine h.1))
    rw [Nat.ofDigitChars_cons, ← ih h.2 (by omega), ← hstep, List.append_assoc]
    rfl

/-- **Digits without a redundant zero in front are those of their number.** -/
theorem digits_ofDigitChars {s : List Char} (h : ∀ c ∈ s, c.isDigit = true) (hne : s ≠ [])
    (hhead : s.head? = some '0' → s = ['0']) : digits (Nat.ofDigitChars 10 s 0) = s := by
  cases s with
  | nil => exact absurd rfl hne
  | cons c s =>
    by_cases hc : c = '0'
    · rw [hhead (by rw [hc, List.head?_cons])]
      rfl
    · rw [List.forall_mem_cons] at h
      have hpos : 0 < c.toNat - '0'.toNat := by
        have hle := (Char.isDigit_iff_toNat.1 h.1).1
        have hz : c.toNat ≠ '0'.toNat := fun heq => hc (Char.toNat_inj.1 heq)
        omega
      rw [Nat.ofDigitChars_cons, Nat.mul_zero, Nat.zero_add, ← digits_append h.2 hpos, digits,
        Nat.toDigits_of_lt_base (Nat.lt_succ_of_le (digit_le_nine h.1)), digitChar_of_isDigit h.1]
      rfl

theorem digits_of_head {n : Nat} (h : (digits n).head? = some '0') : digits n = ['0'] := by
  obtain ⟨s, hs⟩ := List.head?_eq_some_iff.1 h
  by_cases hnil : s = []
  · rw [hs, hnil]
  · have hdigit : ∀ c ∈ s, c.isDigit = true := fun c hc =>
      isDigit_of_mem_digits (n := n) (by rw [hs]; exact List.mem_cons_of_mem _ hc)
    have hvalue : Nat.ofDigitChars 10 s 0 = n := by
      have hn : Nat.ofDigitChars 10 (digits n) 0 = n := Nat.ofDigitChars_ten_toDigits
      rwa [hs, Nat.ofDigitChars_cons] at hn
    -- The rest is already long enough for the whole number.
    have hlt := ofDigitChars_lt hdigit
    rw [hvalue] at hlt
    have hle : (digits n).length ≤ s.length :=
      (Nat.length_toDigits_le_iff (by decide) (List.length_pos_iff.2 hnil)).2 hlt
    rw [hs, List.length_cons] at hle
    omega

/-- Digits are known by their number and how many they are. -/
theorem eq_of_ofDigitChars_eq {s t : List Char} (hs : ∀ c ∈ s, c.isDigit = true) (ht : ∀ c ∈ t, c.isDigit = true)
    (hlength : s.length = t.length) (h : Nat.ofDigitChars 10 s 0 = Nat.ofDigitChars 10 t 0) : s = t := by
  -- A one in front keeps the zeros that both may begin with.
  have hone : digits 1 ++ s = digits 1 ++ t := by
    rw [digits_append hs Nat.one_pos, digits_append ht Nat.one_pos, Nat.ofDigitChars_eq_ofDigitChars_zero, hlength, h,
      ← Nat.ofDigitChars_eq_ofDigitChars_zero]
  exact List.append_cancel_left hone

namespace Amount

variable {places : Nat}

/-- The number an amount shows, in whole `10^-places`. -/
def number (a : Amount places) : Nat :=
  Nat.ofDigitChars 10 (a.whole ++ a.decimals) 0

theorem isDigit_of_mem_whole {a : Amount places} {c : Char} (h : c ∈ a.whole) : c.isDigit = true :=
  a.isDigit c (List.mem_append_left _ h)

theorem isDigit_of_mem_decimals {a : Amount places} {c : Char} (h : c ∈ a.decimals) : c.isDigit = true :=
  a.isDigit c (List.mem_append_right _ h)

/-- **Digits are cut into groups of three in one way.** -/
theorem ext_whole {a b : Amount places} (hnegative : a.negative = b.negative) (hwhole : a.whole = b.whole)
    (hdecimals : a.decimals = b.decimals) : a = b := by
  have hlength : ∀ c : Amount places, c.whole.length = c.lead.length + c.groups.length * 3 := by
    intro c
    rw [whole, List.length_append, length_flatten_of_three c.length_group]
  have ha := hlength a
  have hb := hlength b
  rw [hwhole, hb] at ha
  have := a.lead_pos
  have := a.lead_le
  have := b.lead_pos
  have := b.lead_le
  obtain ⟨hlead, hflatten⟩ := List.append_inj hwhole (by omega)
  have hgroups : a.groups = b.groups := by
    rw [List.eq_iff_flatten_eq]
    refine ⟨hflatten, ?_⟩
    rw [List.map_congr_left a.length_group, List.map_congr_left b.length_group, List.map_const', List.map_const']
    congr 1
    omega
  cases a
  cases b
  cases hnegative
  cases hlead
  cases hgroups
  cases hdecimals
  rfl

theorem number_eq (a : Amount places) :
    a.number = tenTo places * Nat.ofDigitChars 10 a.whole 0 + Nat.ofDigitChars 10 a.decimals 0 := by
  rw [number, Nat.ofDigitChars_append, Nat.ofDigitChars_eq_ofDigitChars_zero, a.length_decimals]
  rfl

theorem whole_ne_nil (a : Amount places) : a.whole ≠ [] := by
  rw [← List.length_pos_iff, whole, List.length_append]
  exact Nat.lt_of_lt_of_le a.lead_pos (Nat.le_add_right _ _)

/-- **An amount is known by its sign and its number**, if no redundant zero stands in front. -/
theorem eq_of_number_eq {a b : Amount places} (hnegative : a.negative = b.negative)
    (ha : a.whole.head? = some '0' → a.whole = ['0']) (hb : b.whole.head? = some '0' → b.whole = ['0'])
    (h : a.number = b.number) : a = b := by
  have hlt : ∀ c : Amount places, Nat.ofDigitChars 10 c.decimals 0 < tenTo places := fun c => by
    have := ofDigitChars_lt (s := c.decimals) fun _ => isDigit_of_mem_decimals
    rwa [c.length_decimals] at this
  have hdiv : ∀ c : Amount places, c.number / tenTo places = Nat.ofDigitChars 10 c.whole 0 := fun c => by
    rw [number_eq, Nat.mul_add_div (tenTo_pos places), Nat.div_eq_of_lt (hlt c), Nat.add_zero]
  have hmod : ∀ c : Amount places, c.number % tenTo places = Nat.ofDigitChars 10 c.decimals 0 := fun c => by
    rw [number_eq, Nat.mul_add_mod, Nat.mod_eq_of_lt (hlt c)]
  refine ext_whole hnegative ?_ ?_
  · rw [← digits_ofDigitChars (fun _ => isDigit_of_mem_whole) a.whole_ne_nil ha, ← hdiv, h, hdiv,
      digits_ofDigitChars (fun _ => isDigit_of_mem_whole) b.whole_ne_nil hb]
  · refine eq_of_ofDigitChars_eq (fun _ => isDigit_of_mem_decimals) (fun _ => isDigit_of_mem_decimals) ?_ ?_
    · rw [a.length_decimals, b.length_decimals]
    · rw [← hmod, h, hmod]

/-- Whether an amount is what the double `±m` is rounded to at its number of decimals. -/
structure Renders (a : Amount places) (negative : Bool) (m : Magnitude) : Prop where
  rounded : HalfEven (m.value * 10 ^ places) a.number
  head_whole : a.whole.head? = some '0' → a.whole = ['0']
  negative_iff : a.negative = true ↔ Binary64.finite negative m < 0 ∧ a.number ≠ 0

end Amount

theorem halfEven_scaled_iff (m : Magnitude) (places : Nat) {n : Nat} :
    HalfEven (m.value * 10 ^ places) n ↔ scaled m places = n := by
  have hvalue : m.value * 10 ^ places = ((m.units * tenTo places : Nat) : ℚ) / unitsPerOne := by
    have hten : ((tenTo places : Nat) : ℚ) = 10 ^ places := Nat.cast_pow 10 places
    rw [Magnitude.value, Nat.cast_mul, hten, div_mul_eq_mul_div]
  rw [hvalue]
  exact halfEven_iff _ unitsPerOne_pos

theorem scaled_eq_zero {m : Magnitude} (h : m.units = 0) (places : Nat) : scaled m places = 0 := by
  rw [scaled, h, Nat.zero_mul]
  exact Nat.eq_zero_of_le_zero (roundDiv_le_of_le_mul unitsPerOne_pos (Nat.zero_le _))

namespace Amount

variable {places : Nat}

theorem Renders.unique {a b : Amount places} {negative : Bool} {m : Magnitude} (ha : a.Renders negative m)
    (hb : b.Renders negative m) : a = b := by
  have hnumber : a.number = b.number :=
    ((halfEven_scaled_iff m places).1 ha.rounded).symm.trans ((halfEven_scaled_iff m places).1 hb.rounded)
  have hnegative : a.negative = b.negative := by
    rw [Bool.eq_iff_iff, ha.negative_iff, hb.negative_iff, hnumber]
  exact eq_of_number_eq hnegative ha.head_whole hb.head_whole hnumber

theorem renders_of_parts {a : Amount places} {negative : Bool} {m : Magnitude}
    (hnegative : a.negative = (negative && scaled m places != 0))
    (hwhole : a.whole = digits (scaled m places / tenTo places))
    (hdecimals : a.decimals = fractionDigits places (scaled m places)) : a.Renders negative m := by
  have hnumber : a.number = scaled m places := by
    rw [number, hwhole, hdecimals, ofDigitChars_plain]
  refine ⟨(halfEven_scaled_iff m places).2 hnumber.symm, ?_, ?_⟩
  · rw [hwhole]
    exact digits_of_head
  · rw [hnegative, hnumber, Binary64.finite_lt_zero_iff, Bool.and_eq_true, bne_iff_ne]
    have hzero : scaled m places ≠ 0 → m.units ≠ 0 := mt fun h => scaled_eq_zero h places
    constructor
    · rintro ⟨hneg, hne⟩
      exact ⟨⟨hneg, hzero hne⟩, hne⟩
    · rintro ⟨⟨hneg, -⟩, hne⟩
      exact ⟨hneg, hne⟩

end Amount

/-- **A double is printed as its rounded decimal**: one amount with the digits of the magnitude rounded half to even, no
redundant zero in front, and a sign exactly if the double is below zero and the amount is not zero.  It is printed with
any separator between its groups of three digits, and deleting one that is not part of a number leaves the sign and the
decimal with fixed places. -/
theorem formatGrouped_renders (negative : Bool) (m : Magnitude) (places : Nat) :
    ∃ a : Amount places, a.Renders negative m ∧ (∀ b : Amount places, b.Renders negative m → b = a) ∧
      (∀ separator, formatGrouped (.finite negative m) separator places = a.text separator) ∧
      formatFixed m places = String.ofList (a.whole ++ if places = 0 then [] else '.' :: a.decimals) ∧
      ∀ separator, separator ≠ '-' → separator ≠ '.' → separator.isDigit = false →
        (formatGrouped (.finite negative m) separator places).toList.filter (· != separator) =
          (if a.negative then ['-'] else []) ++ (formatFixed m places).toList := by
  obtain ⟨a, -, hnegative, hwhole, hdecimals⟩ := exists_amount_finite negative m ',' places
  have ha := Amount.renders_of_parts hnegative hwhole hdecimals
  have hfixed : formatFixed m places = String.ofList (a.whole ++ if places = 0 then [] else '.' :: a.decimals) := by
    rw [hwhole, hdecimals, ← fraction_eq]
    rfl
  refine ⟨a, ha, fun b hb => hb.unique ha, fun separator => ?_, hfixed, fun separator hminus hpoint hdigit => ?_⟩
  · obtain ⟨b, htext, hb, hbwhole, hbdecimals⟩ := exists_amount_finite negative m separator places
    rw [htext, (Amount.renders_of_parts hb hbwhole hbdecimals).unique ha]
  · rw [filter_formatGrouped negative m places ⟨hminus, hpoint, hdigit⟩, ← hnegative, plain, List.append_assoc]
    unfold formatFixed
    rw [String.toList_ofList]

/-- Rounding can add a digit, and with it a group. -/
example : formatGrouped (Binary64.ofRatio true (999999 * unitsPerOne) 1000) ',' 2 = "-1,000.00" := by
  decide +kernel

end Decimal
end InterestDesk
