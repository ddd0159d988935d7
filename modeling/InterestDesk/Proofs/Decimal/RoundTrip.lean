import InterestDesk.Request
import InterestDesk.Proofs.Decimal.Text
import InterestDesk.Proofs.Decimal.Value
/-!
# RoundTrip — a printed amount is read back and printed again

A printed amount is a double rounded to whole `10^-places`.  Reading it takes the double nearest to that decimal, which
is at least as near to it as the printed double was: it rounds to the same decimal again (`scaled_nearest`).
-/
namespace InterestDesk
namespace Decimal

open Binary64 (unitsPerOne unitsPerOne_pos leadingBit Magnitude)

/-- The largest double is a whole number. -/
def largestWhole : Nat :=
  (2 * leadingBit - 1) * twoTo 971

theorem maxUnits_eq : Magnitude.maxUnits = largestWhole * unitsPerOne := by
  decide +kernel

theorem scaled_le (m : Magnitude) (places : Nat) : scaled m places ≤ largestWhole * tenTo places := by
  refine roundDiv_le_of_le_mul unitsPerOne_pos ?_
  rw [Nat.mul_right_comm, ← maxUnits_eq]
  exact Nat.mul_le_mul_right _ m.units_le_maxUnits

/-- **The double nearest to a rounded decimal rounds to the same decimal.** -/
theorem scaled_nearest (m : Magnitude) (places : Nat) :
    ∃ near, Magnitude.nearest (scaled m places * unitsPerOne) (tenTo places) = some near ∧
      scaled near places = scaled m places := by
  have hbound : scaled m places * unitsPerOne ≤ Magnitude.maxUnits * tenTo places := by
    rw [maxUnits_eq, Nat.mul_right_comm]
    exact Nat.mul_le_mul_right _ (scaled_le m places)
  obtain ⟨near, hnear⟩ := Magnitude.exists_nearest (tenTo_pos places) hbound
  refine ⟨near, hnear, ?_⟩
  have hcloser := Magnitude.dist_nearest_le (tenTo_pos places) hnear m
  rw [Nat.dist_comm, Nat.dist_comm (scaled m places * unitsPerOne)] at hcloser
  unfold scaled at hcloser ⊢
  exact roundDiv_eq_of_nearer unitsPerOne_pos hcloser

theorem toBinary64_plain (negative : Bool) (places n : Nat) :
    (Numeral.mk negative (digits (n / tenTo places) ++ fractionDigits places n) (-(places : Int))).toBinary64 =
      .ofRatio negative (n * unitsPerOne) (tenTo places) := by
  have hall : ∀ c ∈ digits (n / tenTo places) ++ fractionDigits places n, c.isDigit = true := by
    intro c hc
    rcases List.mem_append.1 hc with h | h
    · exact isDigit_of_mem_digits h
    · exact isDigit_of_mem_fractionDigits h
  have hup : (-(places : Int)).toNat = 0 := by omega
  have hdown : (-(-(places : Int))).toNat = places := by omega
  rw [Numeral.toBinary64_eq _ hall]
  dsimp only
  rw [ofDigitChars_plain, hup, hdown, show tenTo 0 = 1 from rfl, Nat.mul_one]

/-- **A printed amount without its separators is plain**, and its sign shows only beside a digit that is not zero. -/
theorem filter_formatGrouped (negative : Bool) (m : Magnitude) (places : Nat) {separator : Char}
    (hseparator : separator ≠ '-' ∧ separator ≠ '.' ∧ separator.isDigit = false) :
    (formatGrouped (.finite negative m) separator places).toList.filter (· != separator) =
      plain (negative && scaled m places != 0) places (scaled m places) := by
  have hkeep : (plain (negative && scaled m places != 0) places (scaled m places)).filter (· != separator) =
      plain (negative && scaled m places != 0) places (scaled m places) := by
    rw [List.filter_eq_self]
    intro c hc
    rw [bne_iff_ne]
    rintro rfl
    rcases mem_plain hc with hminus | hpoint | hdigit
    · exact hseparator.1 hminus
    · exact hseparator.2.1 hpoint
    · rw [hseparator.2.2] at hdigit
      cases hdigit
  unfold formatGrouped
  dsimp only
  rw [String.toList_ofList, List.filter_append, List.filter_append, filter_grouped, ← List.filter_append,
    ← List.filter_append]
  exact hkeep

end Decimal

open Decimal (formatGrouped plain scaled)
open Binary64 (Magnitude unitsPerOne)

theorem readNumber_of_read? {raw : String} {numeral : Decimal.Numeral} {x : Binary64}
    (hread : Decimal.Numeral.read? (Text.trim (raw.toList.filter (· != ','))) = some numeral)
    (hx : numeral.toBinary64 = x) (hfinite : x.isFinite = true) : readNumber raw = .ok x := by
  unfold readNumber
  rw [hread]
  dsimp only
  rw [hx, if_pos hfinite]

/-- A text that is plain without its commas reads as the double nearest to its decimal. -/
theorem readNumber_of_plain {raw : String} {negative : Bool} {places n : Nat} {near : Magnitude}
    (hraw : raw.toList.filter (· != ',') = plain negative places n)
    (hnear : Magnitude.nearest (n * unitsPerOne) (tenTo places) = some near) :
    readNumber raw = .ok (.finite negative near) := by
  have htrim : Text.trim (plain negative places n) = plain negative places n := by
    refine Text.trim_eq_self fun c hc => ?_
    rcases Decimal.mem_plain hc with rfl | rfl | hdigit
    · decide
    · decide
    · exact Text.isBlank_of_isDigit hdigit
  have hvalue := (Decimal.toBinary64_plain negative places n).trans (Binary64.ofRatio_of_nearest negative hnear)
  refine readNumber_of_read? ?_ hvalue rfl
  rw [hraw, htrim, Decimal.read?_plain]

/-- **A printed amount is accepted and printed the same again**: every finite double, with every number of places,
prints as a text that reads as a number, and that number prints as the same text. -/
theorem readNumber_formatGrouped (negative : Bool) (m : Magnitude) (places : Nat) :
    ∃ y, readNumber (formatGrouped (.finite negative m) ',' places) = .ok y ∧
      formatGrouped y ',' places = formatGrouped (.finite negative m) ',' places := by
  obtain ⟨near, hnear, hscaled⟩ := Decimal.scaled_nearest m places
  refine ⟨.finite (negative && scaled m places != 0) near, ?_, ?_⟩
  · exact readNumber_of_plain (Decimal.filter_formatGrouped negative m places (by decide)) hnear
  · unfold formatGrouped
    dsimp only
    rw [hscaled, Bool.and_assoc, Bool.and_self]

end InterestDesk
