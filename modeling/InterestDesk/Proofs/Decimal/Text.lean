import InterestDesk.Decimal.Fixed
import InterestDesk.Decimal.Numeral
import InterestDesk.Text.Blank
import Mathlib.Data.List.TakeWhile
/-!
# Text — the characters of a fixed-point decimal

A decimal with fixed places is an optional sign, whole digits and a fraction.  Grouping only adds separators
(`filter_grouped`), the digits around the point are those of the scaled number (`ofDigitChars_plain`), and the text
without separators reads as the numeral of these digits (`read?_plain`).
-/
namespace InterestDesk
namespace Decimal

theorem isDigit_of_mem_digits {n : Nat} {c : Char} (h : c ∈ digits n) : c.isDigit = true :=
  Nat.isDigit_of_mem_toDigits (by decide) (by decide) h

/-- **Deleting the separator undoes the grouping.** -/
theorem filter_grouped (separator : Char) : ∀ s : List Char,
    (grouped separator s).filter (· != separator) = s.filter (· != separator)
  | [] => rfl
  | c :: rest => by
    have ih := filter_grouped separator rest
    unfold grouped
    split
    · rw [List.filter_cons, List.filter_cons (x := separator), ih, List.filter_cons]
      simp
    · rw [List.filter_cons, ih, List.filter_cons]

/-- The digits behind the point. -/
def fractionDigits (places n : Nat) : List Char :=
  if places = 0 then [] else List.leftpad places '0' (digits (n % tenTo places))

theorem fraction_eq (places n : Nat) :
    fraction places n = if places = 0 then [] else '.' :: fractionDigits places n := by
  unfold fraction fractionDigits
  split
  · rfl
  · rfl

theorem length_fractionDigits (places n : Nat) : (fractionDigits places n).length = places := by
  unfold fractionDigits
  split
  · rename_i h
    exact h.symm
  · rename_i h
    have hlt : n % tenTo places < tenTo places := Nat.mod_lt n (tenTo_pos places)
    have hle : (digits (n % tenTo places)).length ≤ places :=
      (Nat.length_toDigits_le_iff (by decide) (Nat.pos_of_ne_zero h)).2 hlt
    rw [List.length_leftpad]
    exact Nat.max_eq_left hle

theorem isDigit_of_mem_fractionDigits {places n : Nat} {c : Char} (h : c ∈ fractionDigits places n) :
    c.isDigit = true := by
  unfold fractionDigits at h
  split at h
  · cases h
  · unfold List.leftpad at h
    rcases List.mem_append.1 h with h | h
    · rw [(List.mem_replicate.1 h).2]
      rfl
    · exact isDigit_of_mem_digits h

/-- **The digits on both sides of the point are those of the scaled number.** -/
theorem ofDigitChars_plain (places n : Nat) :
    Nat.ofDigitChars 10 (digits (n / tenTo places) ++ fractionDigits places n) 0 = n := by
  have hwhole : Nat.ofDigitChars 10 (digits (n / tenTo places)) 0 = n / tenTo places := Nat.ofDigitChars_ten_toDigits
  have hfraction : Nat.ofDigitChars 10 (fractionDigits places n) 0 = n % tenTo places := by
    unfold fractionDigits
    split
    · rename_i h
      rw [h, Nat.ofDigitChars_nil]
      exact (Nat.mod_one n).symm
    · unfold List.leftpad
      rw [Nat.ofDigitChars_append, Nat.ofDigitChars_replicate_zero, Nat.mul_zero]
      exact Nat.ofDigitChars_ten_toDigits
  rw [Nat.ofDigitChars_append, hwhole, Nat.ofDigitChars_eq_ofDigitChars_zero, length_fractionDigits, hfraction]
  exact Nat.div_add_mod n (tenTo places)

/-- A sign, the digits of `n` and a point in front of the last `places` of them. -/
def plain (negative : Bool) (places n : Nat) : List Char :=
  (if negative then ['-'] else []) ++ digits (n / tenTo places) ++ fraction places n

theorem mem_plain {negative : Bool} {places n : Nat} {c : Char} (h : c ∈ plain negative places n) :
    c = '-' ∨ c = '.' ∨ c.isDigit = true := by
  unfold plain at h
  rw [List.mem_append, List.mem_append, fraction_eq] at h
  rcases h with (h | h) | h
  · cases negative
    · cases h
    · exact .inl (List.mem_singleton.1 h)
  · exact .inr (.inr (isDigit_of_mem_digits h))
  · split at h
    · cases h
    · rcases List.mem_cons.1 h with h | h
      · exact .inr (.inl h)
      · exact .inr (.inr (isDigit_of_mem_fractionDigits h))

theorem takeSign_plain (negative : Bool) (places n : Nat) :
    takeSign (plain negative places n) = (negative, digits (n / tenTo places) ++ fraction places n) := by
  unfold plain
  cases negative with
  | true => rfl
  | false =>
    cases hd : digits (n / tenTo places) with
    | nil => exact absurd hd Nat.toDigits_ne_nil
    | cons c rest =>
      have hc : c.isDigit = true := isDigit_of_mem_digits (n := n / tenTo places) (by rw [hd]; exact List.mem_cons_self)
      simp only [Bool.false_eq_true, if_false, List.nil_append, List.cons_append]
      unfold takeSign
      split
      · rename_i heq
        cases heq
        cases hc
      · rename_i heq
        cases heq
        cases hc
      · rfl

theorem takeFraction_fraction (places n : Nat) :
    takeFraction (fraction places n) = (fractionDigits places n, []) := by
  rw [fraction_eq]
  split
  · rename_i h
    rw [h]
    rfl
  · have hall : ∀ c ∈ fractionDigits places n, c.isDigit = true := fun c => isDigit_of_mem_fractionDigits
    show (_, _) = _
    rw [List.takeWhile_eq_self_iff.2 hall, List.dropWhile_eq_nil_iff.2 hall]

/-- **A fixed-point text reads as the numeral of its digits.** -/
theorem read?_plain (negative : Bool) (places n : Nat) :
    Numeral.read? (plain negative places n) =
      some ⟨negative, digits (n / tenTo places) ++ fractionDigits places n, -(places : Int)⟩ := by
  have hall : ∀ c ∈ digits (n / tenTo places), c.isDigit = true := fun c => isDigit_of_mem_digits
  have hstop : (fraction places n).takeWhile Char.isDigit = [] ∧
      (fraction places n).dropWhile Char.isDigit = fraction places n := by
    rw [fraction_eq]
    split
    · exact ⟨rfl, rfl⟩
    · exact ⟨rfl, rfl⟩
  have hne : (digits (n / tenTo places)).isEmpty = false := by
    rw [List.isEmpty_eq_false_iff]
    exact Nat.toDigits_ne_nil
  unfold Numeral.read?
  simp only [takeSign_plain, List.takeWhile_append_of_pos hall, List.dropWhile_append_of_pos hall, hstop.1, hstop.2,
    List.append_nil, takeFraction_fraction, hne, Bool.false_and, Bool.false_eq_true, if_false, readExponent?,
    Option.map_some, length_fractionDigits, Int.zero_sub]

end Decimal

namespace Text

theorem trim_eq_self {s : List Char} (h : ∀ c ∈ s, isBlank c = false) : trim s = s := by
  have hkeep : ∀ {s : List Char}, (∀ c ∈ s, isBlank c = false) → s.dropWhile isBlank = s := by
    intro s hs
    cases s with
    | nil => rfl
    | cons c rest => rw [List.dropWhile_cons_of_neg (by simp [hs c])]
  unfold trim dropTrailing
  rw [hkeep h, hkeep fun c hc => h c (List.mem_reverse.1 hc), List.reverse_reverse]

theorem isBlank_of_isDigit {c : Char} (h : c.isDigit = true) : isBlank c = false := by
  rw [Char.isDigit_iff_toNat] at h
  have h0 : '0'.toNat = 48 := rfl
  have h9 : '9'.toNat = 57 := rfl
  obtain ⟨d, rfl⟩ : ∃ d : Fin 10, c = Char.ofNat (48 + d) :=
    ⟨⟨c.toNat - 48, by omega⟩, by rw [show 48 + (c.toNat - 48) = c.toNat by omega, Char.ofNat_toNat]⟩
  revert d
  decide

end Text
end InterestDesk
