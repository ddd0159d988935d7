import InterestDesk.Proofs.Decimal.Literal
import InterestDesk.Proofs.Decimal.Text
import InterestDesk.Request
/-!
# Numbers — which texts are read as which numbers

A field is read as a number exactly if a literal is left of it without its commas and the white space around it, and
the value read of the literal rounds to a finite double (`readNumber_cases`).  Any other text is refused as it was
submitted.  Only a literal of tens of thousands of digits has another value than the one read (`readNumber_farTenth`).
-/
namespace InterestDesk

open Binary64 (Rounds overflow unitsPerOne)
open Decimal (Literal Power exponentCeiling)

/-- What is left of a text without its commas and the white space at its ends. -/
def cleaned (raw : String) : List Char :=
  Text.trim (raw.toList.filter (· != ','))

/-- Whether a text is, once cleaned, a literal whose value rounds to the finite double `v`. -/
def Reads (value : Literal → ℚ) (raw : String) (v : Binary64) : Prop :=
  v.isFinite = true ∧ ∃ l : Literal, l.chars = cleaned raw ∧ Rounds l.sign.isNegative (value l) v

theorem reads_iff {raw : String} {v : Binary64} :
    Reads Literal.amountRead raw v ↔
      v.isFinite = true ∧ ∃ n, Decimal.Numeral.read? (cleaned raw) = some n ∧ n.toBinary64 = v := by
  refine and_congr_right fun _ => ?_
  constructor
  · rintro ⟨l, hchars, hrounds⟩
    exact ⟨l.numeral, Decimal.read?_eq_some_iff.2 ⟨l, hchars, rfl⟩, l.rounds_amountRead.1 hrounds⟩
  · rintro ⟨n, hread, hvalue⟩
    obtain ⟨l, hchars, rfl⟩ := Decimal.read?_eq_some_iff.1 hread
    exact ⟨l, hchars, l.rounds_amountRead.2 hvalue⟩

theorem reads_literal_iff {value : Literal → ℚ} {raw : String} {l : Literal} (h : l.chars = cleaned raw)
    {v : Binary64} : Reads value raw v ↔ v.isFinite = true ∧ Rounds l.sign.isNegative (value l) v := by
  refine and_congr_right fun _ => ⟨?_, fun hrounds => ⟨l, h, hrounds⟩⟩
  rintro ⟨other, hother, hrounds⟩
  cases Decimal.chars_injective (hother.trans h.symm)
  exact hrounds

theorem readNumber_of_reads {raw : String} {v : Binary64} (h : Reads Literal.amountRead raw v) :
    readNumber raw = .ok v := by
  obtain ⟨hfinite, n, hread, rfl⟩ := reads_iff.1 h
  unfold cleaned at hread
  unfold readNumber
  rw [hread]
  exact if_pos hfinite

theorem readNumber_of_not_reads {raw : String} (h : ¬ ∃ v, Reads Literal.amountRead raw v) :
    readNumber raw = .error (.invalidNumber raw) := by
  unfold readNumber
  cases hread : Decimal.Numeral.read? (Text.trim (raw.toList.filter (· != ','))) with
  | none => rfl
  | some n => exact if_neg fun hfinite => h ⟨n.toBinary64, reads_iff.2 ⟨hfinite, n, hread, rfl⟩⟩

theorem readNumber_eq_ok_iff {raw : String} {v : Binary64} :
    readNumber raw = .ok v ↔ Reads Literal.amountRead raw v := by
  refine ⟨fun h => ?_, readNumber_of_reads⟩
  by_cases hreads : ∃ w, Reads Literal.amountRead raw w
  · obtain ⟨w, hw⟩ := hreads
    cases (readNumber_of_reads hw).symm.trans h
    exact hw
  · cases (readNumber_of_not_reads hreads).symm.trans h

theorem readNumber_eq_error_iff {raw : String} {refusal : Refusal} :
    readNumber raw = .error refusal ↔ refusal = .invalidNumber raw ∧ ¬ ∃ v, Reads Literal.amountRead raw v := by
  constructor
  · intro h
    have hnone : ¬ ∃ v, Reads Literal.amountRead raw v := by
      rintro ⟨v, hv⟩
      cases (readNumber_of_reads hv).symm.trans h
    cases (readNumber_of_not_reads hnone).symm.trans h
    exact ⟨rfl, hnone⟩
  · rintro ⟨rfl, hnone⟩
    exact readNumber_of_not_reads hnone

/-- **A text is a number exactly if it is written as one**: it is read as `v` exactly if a literal is left of it whose
value, with the exponent's digits taken up to the ceiling, rounds to the finite `v`, and any other text is refused as
submitted.  The value is the exact one unless the exponent is ten times the ceiling and the digits are almost as many
as the ceiling. -/
theorem readNumber_cases (raw : String) :
    (∀ v, readNumber raw = .ok v ↔ Reads Literal.amountRead raw v) ∧
      (∀ refusal, readNumber raw = .error refusal ↔
        refusal = .invalidNumber raw ∧ ¬ ∃ v, Reads Literal.amountRead raw v) ∧
      ∀ l : Literal, l.chars = cleaned raw →
        (∀ p ∈ l.power, p.size < 10 * exponentCeiling) ∨ l.digits.length + 401 ≤ exponentCeiling →
        ∀ v, readNumber raw = .ok v ↔ Reads Literal.amount raw v := by
  refine ⟨fun v => readNumber_eq_ok_iff, fun refusal => readNumber_eq_error_iff, fun l hchars h v => ?_⟩
  rw [readNumber_eq_ok_iff, reads_literal_iff hchars, reads_literal_iff hchars, l.rounds_amountRead_iff h]

/-- Commas and white space around a number do not show, and a zero keeps its sign. -/
theorem readNumber_negative_zero :
    readNumber " -,.0E+7\t" = .ok (.zero true) ∧ Reads Literal.amount " -,.0E+7\t" (.zero true) := by
  have hread : readNumber " -,.0E+7\t" = .ok (.zero true) := by decide +kernel
  let seven : Power := ⟨'E', .plus, ['7'], .inr rfl, List.cons_ne_nil _ _, List.all_eq_true.1 rfl⟩
  let zero : Literal := ⟨.minus, [], some ['0'], some seven, List.all_eq_true.1 rfl, List.cons_ne_nil _ _⟩
  have hclean : zero.chars = cleaned " -,.0E+7\t" := by decide +kernel
  have hshort : zero.digits.length + 401 ≤ exponentCeiling := by decide
  exact ⟨hread, ((readNumber_cases _).2.2 zero hclean (.inr hshort) _).1 hread⟩

/-- The characters of a literal that are not digits. -/
def literalMarks : List Char :=
  ['+', '-', '.', 'e', 'E']

theorem mem_literal {l : Literal} {c : Char} (h : c ∈ l.chars) : c.isDigit = true ∨ c ∈ literalMarks := by
  have hsign : ∀ sign : Decimal.Sign, ∀ d ∈ sign.chars, d ∈ literalMarks
    | .none => List.forall_mem_nil _
    | .plus => List.forall_mem_singleton.2 (by decide)
    | .minus => List.forall_mem_singleton.2 (by decide)
  have hpoint : ∀ fraction : Option (List Char), c ∈ Literal.pointChars fraction →
      c ∈ fraction.getD [] ∨ c ∈ literalMarks := by
    rintro (_ | fraction) hc
    · cases hc
    · rcases List.mem_cons.1 hc with rfl | hc
      · exact .inr (by decide)
      · exact .inl hc
  have hpower : ∀ power : Option Power, c ∈ Literal.powerChars power → c.isDigit = true ∨ c ∈ literalMarks := by
    rintro (_ | p) hc
    · cases hc
    · rcases List.mem_cons.1 hc with rfl | hc
      · refine .inr ?_
        rcases p.mark_eq with hmark | hmark <;> rw [hmark] <;> decide
      · rcases List.mem_append.1 hc with hc | hc
        · exact .inr (hsign _ _ hc)
        · exact .inl (p.isDigit c hc)
  unfold Literal.chars at h
  rw [List.mem_append, List.mem_append, List.mem_append] at h
  rcases h with h | h | h | h
  · exact .inr (hsign _ _ h)
  · exact .inl (l.isDigit_of_mem_whole c h)
  · exact (hpoint _ h).imp_left (l.isDigit_of_mem_fraction c)
  · exact hpower _ h

/-- A literal is clean. -/
theorem cleaned_literal (l : Literal) : cleaned (String.ofList l.chars) = l.chars := by
  have hmarks : literalMarks.all (fun c => c != ',' && !Text.isBlank c) = true := by decide
  rw [List.all_eq_true] at hmarks
  simp only [Bool.and_eq_true, Bool.not_eq_true'] at hmarks
  have hkeep : l.chars.filter (· != ',') = l.chars := by
    rw [List.filter_eq_self]
    intro c hc
    rcases mem_literal hc with hdigit | hmark
    · rw [bne_iff_ne]
      rintro rfl
      cases hdigit
    · exact (hmarks c hmark).1
  unfold cleaned
  rw [String.toList_ofList, hkeep]
  refine Text.trim_eq_self fun c hc => ?_
  rcases mem_literal hc with hdigit | hmark
  · exact Text.isBlank_of_isDigit hdigit
  · exact (hmarks c hmark).2

/-- A one behind as many zeros as the ceiling of the exponent is high, times ten to ten times the ceiling: the exponent
is read as the ceiling, and leaves a tenth. -/
def farTenth : Literal where
  sign := .none
  whole := ['0']
  fraction := some (List.replicate exponentCeiling '0' ++ ['1'])
  power := some ⟨'e', .none, ['6', '5', '5', '3', '6', '0'], .inl rfl, List.cons_ne_nil _ _, List.all_eq_true.1 rfl⟩
  isDigit := by
    intro c hc
    rcases List.mem_append.1 hc with hc | hc
    · cases List.mem_singleton.1 hc
      rfl
    · rcases List.mem_append.1 hc with hc | hc
      · rw [(List.mem_replicate.1 hc).2]
        rfl
      · cases List.mem_singleton.1 hc
        rfl
  digits_ne := List.cons_ne_nil _ _

theorem ofDigitChars_farTenth : Nat.ofDigitChars 10 farTenth.digits 0 = 1 := by
  show Nat.ofDigitChars 10 ('0' :: (List.replicate exponentCeiling '0' ++ ['1'])) 0 = 1
  rw [Nat.ofDigitChars_cons, Nat.ofDigitChars_append, Nat.ofDigitChars_replicate_zero, Nat.sub_self, Nat.mul_zero]
  rfl

theorem places_farTenth : farTenth.places = exponentCeiling + 1 := by
  show (List.replicate exponentCeiling '0' ++ ['1']).length = exponentCeiling + 1
  rw [List.length_append, List.length_replicate]
  rfl

theorem overflow_le_farTenth : overflow ≤ farTenth.amount := by
  have hexponent : farTenth.exponent - farTenth.places = ((9 * exponentCeiling - 1 : Nat) : Int) := by
    rw [places_farTenth]
    decide
  have hlarge : 1024 ≤ 9 * exponentCeiling - 1 := by decide
  unfold Literal.amount Literal.amountAt
  rw [ofDigitChars_farTenth, hexponent, zpow_natCast, Nat.cast_one, one_mul]
  calc overflow ≤ (2 : ℚ) ^ 1024 := sub_le_self _ (by positivity)
    _ ≤ 10 ^ 1024 := pow_le_pow_left₀ (by norm_num) (by norm_num) _
    _ ≤ 10 ^ (9 * exponentCeiling - 1) := pow_le_pow_right₀ (by norm_num) hlarge

theorem rounds_farTenth :
    Rounds farTenth.sign.isNegative farTenth.amountRead (.ofBits 0x3fb999999999999a) := by
  have hexponent : farTenth.exponentRead - farTenth.places = -1 := by
    rw [places_farTenth]
    decide
  refine (farTenth.rounds_amountAt_iff farTenth.exponentRead).2 ?_
  rw [ofDigitChars_farTenth, hexponent]
  decide +kernel

/-- **A literal of tens of thousands of digits can be read as a number that is not its own**: this one is past the
largest double, and is read as a tenth. -/
theorem readNumber_farTenth :
    readNumber (String.ofList farTenth.chars) = .ok (.ofBits 0x3fb999999999999a) ∧
      ¬ ∃ v, Reads Literal.amount (String.ofList farTenth.chars) v := by
  constructor
  · exact readNumber_of_reads
      ((reads_literal_iff (cleaned_literal farTenth).symm).2 ⟨by decide +kernel, rounds_farTenth⟩)
  · rintro ⟨v, hv⟩
    obtain ⟨hfinite, hrounds⟩ := (reads_literal_iff (cleaned_literal farTenth).symm).1 hv
    cases hrounds with
    | finite m below nearest even => exact absurd overflow_le_farTenth (not_le.2 below)
    | infinity past => cases hfinite

end InterestDesk
