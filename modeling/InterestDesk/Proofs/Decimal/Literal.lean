import InterestDesk.Proofs.Binary64.Rounds
import InterestDesk.Proofs.Decimal.Value
import InterestDesk.Proofs.Text.Cut
import Mathlib.Algebra.Order.Field.Power
import Mathlib.Data.List.Infix
import Mathlib.Data.List.TakeWhile
/-!
# Literal — the written form of a numeral

`Literal` is the grammar: a sign or none, digits with at most one point, and a power of ten or none.  A text is read as
a numeral exactly if it is written like that (`read?_eq_some_iff`).  The exponent is read up to a ceiling
(`exponentOf_eq_taken`); only many thousands of digits in front of it let that show (`rounds_amountRead_iff`).
-/
namespace InterestDesk
namespace Decimal

/-- The sign in front of a number, if there is one. -/
inductive Sign where
  | none | plus | minus
  deriving DecidableEq

namespace Sign

def chars : Sign → List Char
  | none => []
  | plus => ['+']
  | minus => ['-']

def isNegative (sign : Sign) : Bool :=
  sign == minus

end Sign

/-- A text does not start with a sign. -/
def Unsigned (s : List Char) : Prop :=
  s.head? ≠ some '+' ∧ s.head? ≠ some '-'

theorem Unsigned.of_isDigit {c : Char} (h : c.isDigit = true) (s : List Char) : Unsigned (c :: s) := by
  constructor <;> rintro ⟨⟩ <;> cases h

theorem takeSign_append (sign : Sign) {s : List Char} (h : Unsigned s) :
    takeSign (sign.chars ++ s) = (sign.isNegative, s) := by
  cases sign with
  | none =>
    show takeSign s = (false, s)
    unfold takeSign
    split
    · exact absurd rfl h.1
    · exact absurd rfl h.2
    · rfl
  | plus => rfl
  | minus => rfl

theorem Sign.chars_injective {sign other : Sign} (h : sign.chars = other.chars) : sign = other := by
  cases sign <;> cases other <;> first | rfl | cases h

theorem signed_inj {sign other : Sign} {s t : List Char} (hs : Unsigned s) (ht : Unsigned t)
    (h : sign.chars ++ s = other.chars ++ t) : sign = other ∧ s = t := by
  have hrest := congrArg takeSign h
  rw [takeSign_append sign hs, takeSign_append other ht] at hrest
  cases congrArg Prod.snd hrest
  exact ⟨Sign.chars_injective (List.append_cancel_right h), rfl⟩

theorem exists_sign (s : List Char) :
    ∃ sign : Sign, sign.chars ++ (takeSign s).2 = s ∧ sign.isNegative = (takeSign s).1 := by
  unfold takeSign
  split
  · exact ⟨.plus, rfl, rfl⟩
  · exact ⟨.minus, rfl, rfl⟩
  · exact ⟨.none, rfl, rfl⟩

/-- The digits of an exponent that are read: those up to where they first make the ceiling, or all of them. -/
def takenDigits (digits : List Char) : List Char :=
  (digits.inits.find? fun s => decide (exponentCeiling ≤ Nat.ofDigitChars 10 s 0)).getD digits

theorem foldl_exponentStep_of_le {n : Nat} (h : exponentCeiling ≤ n) (s : List Char) : s.foldl exponentStep n = n := by
  induction s with
  | nil => rfl
  | cons c s ih => rw [List.foldl_cons, exponentStep, if_neg (Nat.not_lt.2 h), ih]

theorem foldl_exponentStep_eq : ∀ (s : List Char) (n : Nat), s.foldl exponentStep n =
    Nat.ofDigitChars 10 ((s.inits.find? fun t => decide (exponentCeiling ≤ Nat.ofDigitChars 10 t n)).getD s) n
  | [], n => by
    rw [List.inits, List.find?_singleton]
    split
    · rfl
    · rfl
  | c :: s, n => by
    rw [List.inits_cons, List.find?_cons, Nat.ofDigitChars_nil]
    rcases Nat.lt_or_ge n exponentCeiling with hlow | hhigh
    · rw [decide_eq_false (Nat.not_le.2 hlow), List.find?_map, List.foldl_cons, exponentStep, if_pos hlow,
        foldl_exponentStep_eq s]
      simp only [Function.comp_def, Nat.ofDigitChars_cons]
      rw [← Nat.ofDigitChars_cons]
      exact congrArg (Nat.ofDigitChars 10 · n) (Option.getD_map (c :: ·) s _).symm
    · rw [decide_eq_true hhigh, foldl_exponentStep_of_le hhigh]
      rfl

/-- **An exponent is read as the number of its taken digits.** -/
theorem exponentOf_eq_taken (s : List Char) : exponentOf s = Nat.ofDigitChars 10 (takenDigits s) 0 :=
  foldl_exponentStep_eq s 0

/-- A power of ten behind a number. -/
structure Power where
  mark : Char
  sign : Sign
  digits : List Char
  mark_eq : mark = 'e' ∨ mark = 'E'
  digits_ne : digits ≠ []
  isDigit : ∀ c ∈ digits, c.isDigit = true

namespace Power

def chars (p : Power) : List Char :=
  p.mark :: (p.sign.chars ++ p.digits)

/-- The number behind the mark, without its sign. -/
def size (p : Power) : Nat :=
  Nat.ofDigitChars 10 p.digits 0

def exponent (p : Power) : Int :=
  if p.sign.isNegative then -(p.size : Int) else p.size

/-- The number of the digits that are read. -/
def sizeRead (p : Power) : Nat :=
  Nat.ofDigitChars 10 (takenDigits p.digits) 0

def exponentRead (p : Power) : Int :=
  if p.sign.isNegative then -(p.sizeRead : Int) else p.sizeRead

theorem not_isDigit_mark (p : Power) : p.mark.isDigit = false := by
  rcases p.mark_eq with h | h <;> rw [h] <;> rfl

theorem unsigned_digits (p : Power) : Unsigned p.digits := by
  cases hd : p.digits with
  | nil => exact absurd hd p.digits_ne
  | cons c rest => exact .of_isDigit (p.isDigit c (by rw [hd]; exact List.mem_cons_self)) rest

theorem chars_injective {p other : Power} (h : p.chars = other.chars) : p = other := by
  obtain ⟨hmark, hrest⟩ := List.cons.inj h
  obtain ⟨hsign, hdigits⟩ := signed_inj p.unsigned_digits other.unsigned_digits hrest
  cases p
  cases other
  cases hmark
  cases hsign
  cases hdigits
  rfl

theorem readExponent?_chars (p : Power) : readExponent? p.chars = some p.exponentRead := by
  have hsign := takeSign_append p.sign p.unsigned_digits
  have hmark : (p.mark == 'e' || p.mark == 'E') = true := by
    simpa using p.mark_eq
  have hdigits : (!p.digits.isEmpty && p.digits.all Char.isDigit) = true := by
    simpa [p.digits_ne] using p.isDigit
  unfold readExponent? chars exponentRead sizeRead
  dsimp only
  rw [hsign, hmark, Bool.true_and, if_pos hdigits, exponentOf_eq_taken]

end Power

/-- The written form of a numeral: digits with at most one point, at least one of them, between a sign and a power. -/
structure Literal where
  sign : Sign
  whole : List Char
  /-- the digits behind the point, if there is a point -/
  fraction : Option (List Char)
  power : Option Power
  isDigit : ∀ c ∈ whole ++ fraction.getD [], c.isDigit = true
  digits_ne : whole ++ fraction.getD [] ≠ []

namespace Literal

theorem isDigit_of_mem_whole (l : Literal) : ∀ c ∈ l.whole, c.isDigit = true := fun c hc =>
  l.isDigit c (List.mem_append_left _ hc)

theorem isDigit_of_mem_fraction (l : Literal) : ∀ c ∈ l.fraction.getD [], c.isDigit = true := fun c hc =>
  l.isDigit c (List.mem_append_right _ hc)

def digits (l : Literal) : List Char :=
  l.whole ++ l.fraction.getD []

def places (l : Literal) : Nat :=
  (l.fraction.getD []).length

def pointChars : Option (List Char) → List Char
  | none => []
  | some fraction => '.' :: fraction

def powerChars : Option Power → List Char
  | none => []
  | some p => p.chars

def chars (l : Literal) : List Char :=
  l.sign.chars ++ (l.whole ++ (pointChars l.fraction ++ powerChars l.power))

def exponent (l : Literal) : Int :=
  (l.power.map Power.exponent).getD 0

def exponentRead (l : Literal) : Int :=
  (l.power.map Power.exponentRead).getD 0

/-- The value of the digits around the point times ten to an exponent. -/
def amountAt (l : Literal) (exponent : Int) : ℚ :=
  Nat.ofDigitChars 10 l.digits 0 * 10 ^ (exponent - l.places)

/-- The exact value of a literal, without its sign. -/
def amount (l : Literal) : ℚ :=
  l.amountAt l.exponent

/-- The value of a literal whose exponent is read up to the ceiling. -/
def amountRead (l : Literal) : ℚ :=
  l.amountAt l.exponentRead

/-- What is read of a literal. -/
def numeral (l : Literal) : Numeral :=
  ⟨l.sign.isNegative, l.digits, l.exponentRead - l.places⟩

end Literal

theorem head?_powerChars (power : Option Power) :
    ∀ c ∈ (Literal.powerChars power).head?, c.isDigit = false ∧ c ≠ '.' := by
  cases power with
  | none => exact fun c hc => by cases hc
  | some p =>
    rintro c ⟨⟩
    refine ⟨p.not_isDigit_mark, ?_⟩
    rcases p.mark_eq with h | h <;> rw [h] <;> decide

theorem takeFraction_append (fraction : Option (List Char)) (power : Option Power)
    (h : ∀ c ∈ fraction.getD [], c.isDigit = true) :
    takeFraction (Literal.pointChars fraction ++ Literal.powerChars power) =
      (fraction.getD [], Literal.powerChars power) := by
  have hhead := head?_powerChars power
  cases fraction with
  | none =>
    show takeFraction (Literal.powerChars power) = ([], Literal.powerChars power)
    unfold takeFraction
    split
    · rename_i heq
      rw [heq] at hhead
      exact absurd rfl (hhead '.' rfl).2
    · rfl
  | some fraction =>
    obtain ⟨htake, hdrop⟩ := Text.span_append h fun c hc => (hhead c hc).1
    exact Prod.ext htake hdrop

/-- What follows the digits in front of a point does not go on with a digit. -/
theorem head?_rest (fraction : Option (List Char)) (power : Option Power) :
    ∀ c ∈ (Literal.pointChars fraction ++ Literal.powerChars power).head?, c.isDigit = false := by
  cases fraction with
  | none => exact fun c hc => (head?_powerChars power c hc).1
  | some fraction =>
    rintro c ⟨⟩
    rfl

theorem readExponent?_powerChars (power : Option Power) :
    readExponent? (Literal.powerChars power) = some ((power.map Power.exponentRead).getD 0) := by
  cases power with
  | none => rfl
  | some p => exact p.readExponent?_chars

theorem unsigned_whole (l : Literal) :
    Unsigned (l.whole ++ (Literal.pointChars l.fraction ++ Literal.powerChars l.power)) := by
  cases hw : l.whole with
  | cons c rest => exact .of_isDigit (l.isDigit_of_mem_whole c (by rw [hw]; exact List.mem_cons_self)) _
  | nil =>
    have hne := l.digits_ne
    rw [hw, List.nil_append] at hne
    cases hf : l.fraction with
    | none => exact absurd (by rw [hf]; rfl) hne
    | some fraction => exact ⟨nofun, nofun⟩

/-- **A literal is read as its numeral.** -/
theorem read?_chars (l : Literal) : Numeral.read? l.chars = some l.numeral := by
  obtain ⟨htake, hdrop⟩ := Text.span_append l.isDigit_of_mem_whole (head?_rest l.fraction l.power)
  have hsome : (l.whole.isEmpty && (l.fraction.getD []).isEmpty) = false := by
    have hne := l.digits_ne
    rw [Ne, List.append_eq_nil_iff] at hne
    simpa using hne
  unfold Numeral.read? Literal.chars
  rw [takeSign_append l.sign (unsigned_whole l)]
  dsimp only
  rw [htake, hdrop, takeFraction_append l.fraction l.power l.isDigit_of_mem_fraction]
  dsimp only
  rw [hsome, if_neg Bool.false_ne_true, readExponent?_powerChars]
  rfl

theorem powerChars_injective {power other : Option Power} (h : Literal.powerChars power = Literal.powerChars other) :
    power = other := by
  cases power with
  | none =>
    cases other with
    | none => rfl
    | some p => cases h
  | some p =>
    cases other with
    | none => cases h
    | some q => rw [Power.chars_injective h]

theorem pointChars_injective {fraction other : Option (List Char)}
    (h : Literal.pointChars fraction = Literal.pointChars other) : fraction = other := by
  cases fraction <;> cases other <;> first | rfl | cases h; rfl | cases h

/-- **The grammar is unambiguous**: a text is one literal at most. -/
theorem chars_injective {l other : Literal} (h : l.chars = other.chars) : l = other := by
  obtain ⟨hsign, hrest⟩ := signed_inj (unsigned_whole l) (unsigned_whole other) h
  have hspan := Text.span_append l.isDigit_of_mem_whole (head?_rest l.fraction l.power)
  rw [hrest] at hspan
  obtain ⟨hwhole, htail⟩ := Text.span_append other.isDigit_of_mem_whole (head?_rest other.fraction other.power)
  replace hwhole := hspan.1.symm.trans hwhole
  replace htail := hspan.2.symm.trans htail
  have htaken := congrArg takeFraction htail
  rw [takeFraction_append _ _ l.isDigit_of_mem_fraction,
    takeFraction_append _ _ other.isDigit_of_mem_fraction] at htaken
  have hpower := powerChars_injective (congrArg Prod.snd htaken)
  rw [hpower] at htail
  have hfraction := pointChars_injective (List.append_cancel_right htail)
  cases l
  cases other
  cases hsign
  cases hwhole
  cases hfraction
  cases hpower
  rfl

theorem exists_fraction (s : List Char) :
    ∃ fraction : Option (List Char), Literal.pointChars fraction ++ (takeFraction s).2 = s ∧
      fraction.getD [] = (takeFraction s).1 ∧ ∀ c ∈ fraction.getD [], c.isDigit = true := by
  unfold takeFraction
  split
  · rename_i rest
    refine ⟨some (rest.takeWhile Char.isDigit), ?_, rfl, fun c hc => List.mem_takeWhile_imp hc⟩
    exact congrArg ('.' :: ·) List.takeWhile_append_dropWhile
  · exact ⟨none, rfl, rfl, fun c hc => by cases hc⟩

theorem exists_power {s : List Char} {exponent : Int} (h : readExponent? s = some exponent) :
    ∃ power : Option Power, Literal.powerChars power = s ∧ (power.map Power.exponentRead).getD 0 = exponent := by
  cases s with
  | nil =>
    cases h
    exact ⟨none, rfl, rfl⟩
  | cons mark rest =>
    obtain ⟨sign, hrest, hnegative⟩ := exists_sign rest
    unfold readExponent? at h
    dsimp only at h
    split at h
    · rename_i hok
      cases h
      simp only [Bool.and_eq_true, Bool.or_eq_true, beq_iff_eq, Bool.not_eq_true', List.isEmpty_eq_false_iff,
        List.all_eq_true] at hok
      obtain ⟨⟨hmark, hne⟩, hdigits⟩ := hok
      refine ⟨some ⟨mark, sign, (takeSign rest).2, hmark, hne, hdigits⟩, ?_, ?_⟩
      · exact congrArg (mark :: ·) hrest
      · show Power.exponentRead _ = _
        unfold Power.exponentRead Power.sizeRead
        dsimp only
        rw [hnegative, exponentOf_eq_taken]
    · cases h

/-- **Whatever is read as a numeral is written as a literal.** -/
theorem exists_literal {s : List Char} {n : Numeral} (h : Numeral.read? s = some n) :
    ∃ l : Literal, l.chars = s ∧ l.numeral = n := by
  obtain ⟨sign, hsign, hnegative⟩ := exists_sign s
  obtain ⟨fraction, hpoint, hfraction, hdigits⟩ := exists_fraction ((takeSign s).2.dropWhile Char.isDigit)
  unfold Numeral.read? at h
  dsimp only at h
  split at h
  · cases h
  · rename_i hsome
    obtain ⟨exponent, hexponent, rfl⟩ := Option.map_eq_some_iff.1 h
    obtain ⟨power, hpower, hread⟩ := exists_power hexponent
    rw [← hfraction] at hsome
    refine ⟨⟨sign, (takeSign s).2.takeWhile Char.isDigit, fraction, power, fun c hc => ?_, ?_⟩, ?_, ?_⟩
    · rcases List.mem_append.1 hc with hc | hc
      · exact List.mem_takeWhile_imp hc
      · exact hdigits c hc
    · rw [Ne, List.append_eq_nil_iff]
      simpa using hsome
    · unfold Literal.chars
      dsimp only
      rw [hpower, hpoint, List.takeWhile_append_dropWhile, hsign]
    · unfold Literal.numeral Literal.digits Literal.exponentRead Literal.places
      dsimp only
      rw [hnegative, hread, hfraction]

/-- **A text is read as a numeral exactly if it is written as one.** -/
theorem read?_eq_some_iff {s : List Char} {n : Numeral} :
    Numeral.read? s = some n ↔ ∃ l : Literal, l.chars = s ∧ l.numeral = n := by
  constructor
  · exact exists_literal
  · rintro ⟨l, rfl, rfl⟩
    exact read?_chars l

/-- A further digit makes a number at least ten times as large. -/
theorem ten_mul_le_ofDigitChars {s : List Char} (h : s ≠ []) (n : Nat) : 10 * n ≤ Nat.ofDigitChars 10 s n := by
  cases s with
  | nil => exact absurd rfl h
  | cons c s =>
    rw [Nat.ofDigitChars_cons]
    exact Nat.le_trans (Nat.le_add_right _ _) (le_ofDigitChars s _)

namespace Power

theorem sizeRead_cases (p : Power) :
    p.sizeRead = p.size ∨ exponentCeiling ≤ p.sizeRead ∧ 10 * exponentCeiling ≤ p.size := by
  unfold sizeRead size takenDigits
  cases htaken : p.digits.inits.find? fun s => decide (exponentCeiling ≤ Nat.ofDigitChars 10 s 0) with
  | none => exact .inl rfl
  | some taken =>
    have hceiling : exponentCeiling ≤ Nat.ofDigitChars 10 taken 0 := by simpa using List.find?_some htaken
    obtain ⟨rest, hrest⟩ := (List.mem_inits _ _).1 (List.mem_of_find?_eq_some htaken)
    rw [Option.getD_some, ← hrest, Nat.ofDigitChars_append]
    cases rest with
    | nil => exact .inl (Nat.ofDigitChars_nil ..).symm
    | cons c rest =>
      have hten := ten_mul_le_ofDigitChars (List.cons_ne_nil c rest) (Nat.ofDigitChars 10 taken 0)
      exact .inr ⟨hceiling, Nat.le_trans (Nat.mul_le_mul_left 10 hceiling) hten⟩

end Power

open Binary64 (Rounds rounds_iff unitsPerOne unitsPerOne_pos)

namespace Literal

theorem ofDigitChars_digits_lt (l : Literal) : Nat.ofDigitChars 10 l.digits 0 < tenTo l.digits.length :=
  ofDigitChars_lt l.isDigit

theorem places_le (l : Literal) : l.places ≤ l.digits.length := by
  unfold places digits
  rw [List.length_append]
  exact Nat.le_add_left _ _

/-- The value as a quotient of naturals, in the units of the doubles. -/
theorem amountAt_eq (l : Literal) (exponent : Int) :
    l.amountAt exponent =
      ((Nat.ofDigitChars 10 l.digits 0 * unitsPerOne * tenTo (exponent - l.places).toNat : Nat) : ℚ) /
        ((tenTo (-(exponent - l.places)).toNat : Nat) * unitsPerOne) := by
  have hcast : ∀ n, ((tenTo n : Nat) : ℚ) = 10 ^ n := fun n => Nat.cast_pow 10 n
  have hu : (unitsPerOne : ℚ) ≠ 0 := Nat.cast_ne_zero.2 (Nat.ne_of_gt unitsPerOne_pos)
  unfold amountAt
  generalize exponent - (l.places : Int) = e
  rw [Nat.cast_mul, Nat.cast_mul, hcast, hcast, mul_right_comm, mul_div_mul_right _ _ hu, mul_div_assoc]
  congr 1
  rcases Int.le_total 0 e with h | h
  · rw [show (-e).toNat = 0 by omega, pow_zero, div_one, ← zpow_natCast, Int.toNat_of_nonneg h]
  · rw [show e.toNat = 0 by omega, pow_zero, one_div, ← zpow_natCast, Int.toNat_of_nonneg (by omega), zpow_neg, inv_inv]

theorem rounds_amountAt_iff (l : Literal) (exponent : Int) {v : Binary64} :
    Rounds l.sign.isNegative (l.amountAt exponent) v ↔
      .ofRatio l.sign.isNegative (Nat.ofDigitChars 10 l.digits 0 * unitsPerOne * tenTo (exponent - l.places).toNat)
        (tenTo (-(exponent - l.places)).toNat) = v := by
  rw [amountAt_eq]
  exact rounds_iff _ _ (tenTo_pos _)

/-- **A literal is read as the double nearest to its value**, with the exponent read up to the ceiling. -/
theorem rounds_amountRead (l : Literal) {v : Binary64} :
    Rounds l.sign.isNegative l.amountRead v ↔ l.numeral.toBinary64 = v := by
  rw [Numeral.toBinary64_eq l.numeral l.isDigit]
  exact l.rounds_amountAt_iff l.exponentRead

/-- Past the ceiling all exponents round few digits alike: to infinity or, with no digit but zeros, to zero. -/
theorem ofRatio_of_ceiling_le (l : Literal) (hshort : l.digits.length + 401 ≤ exponentCeiling) {exponent : Int}
    (h : exponentCeiling ≤ exponent) (negative : Bool) :
    .ofRatio negative (Nat.ofDigitChars 10 l.digits 0 * unitsPerOne * tenTo (exponent - l.places).toNat)
        (tenTo (-(exponent - l.places)).toNat) =
      if Nat.ofDigitChars 10 l.digits 0 = 0 then Binary64.zero negative else .infinity negative := by
  have hplaces := l.places_le
  split
  · rename_i hzero
    apply Binary64.ofRatio_of_lt
    rw [hzero, Nat.zero_mul, Nat.zero_mul]
    exact tenTo_pos _
  · rename_i hpos
    have hone : tenTo 0 ≤ Nat.ofDigitChars 10 l.digits 0 := Nat.pos_of_ne_zero hpos
    refine ofRatio_of_huge negative hone ?_
    unfold extremeExponent
    omega

/-- Past the ceiling downwards all exponents round few digits to zero. -/
theorem ofRatio_of_le_neg_ceiling (l : Literal) (hshort : l.digits.length + 401 ≤ exponentCeiling) {exponent : Int}
    (h : exponent ≤ -exponentCeiling) (negative : Bool) :
    .ofRatio negative (Nat.ofDigitChars 10 l.digits 0 * unitsPerOne * tenTo (exponent - l.places).toNat)
        (tenTo (-(exponent - l.places)).toNat) = Binary64.zero negative := by
  refine ofRatio_of_tiny negative l.ofDigitChars_digits_lt ?_
  unfold extremeExponent
  omega

/-- **The ceiling of the exponent shows only behind tens of thousands of digits.** -/
theorem rounds_amountRead_iff (l : Literal)
    (h : (∀ p ∈ l.power, p.size < 10 * exponentCeiling) ∨ l.digits.length + 401 ≤ exponentCeiling) {v : Binary64} :
    Rounds l.sign.isNegative l.amountRead v ↔ Rounds l.sign.isNegative l.amount v := by
  unfold amountRead amount exponentRead exponent
  cases hp : l.power with
  | none => exact Iff.rfl
  | some p =>
    rw [hp] at h
    show Rounds _ (l.amountAt p.exponentRead) v ↔ Rounds _ (l.amountAt p.exponent) v
    rcases p.sizeRead_cases with heq | ⟨hread, hlarge⟩
    · rw [show p.exponentRead = p.exponent by unfold Power.exponentRead Power.exponent; rw [heq]]
    · have hshort := h.resolve_left fun hsmall => by
        have := hsmall p rfl
        omega
      rw [rounds_amountAt_iff, rounds_amountAt_iff]
      unfold Power.exponentRead Power.exponent
      cases p.sign.isNegative with
      | true =>
        rw [if_pos rfl, if_pos rfl, l.ofRatio_of_le_neg_ceiling hshort (by omega),
          l.ofRatio_of_le_neg_ceiling hshort (by omega)]
      | false =>
        rw [if_neg Bool.false_ne_true, if_neg Bool.false_ne_true, l.ofRatio_of_ceiling_le hshort (by omega),
          l.ofRatio_of_ceiling_le hshort (by omega)]

end Literal

end Decimal
end InterestDesk
