import InterestDesk.Desk.Calculator
import InterestDesk.Proofs.Decimal.Amount
import InterestDesk.Proofs.Request.Faults
/-!
# Disclosure — what an answer can show

A result is a fixed text around two amounts, each the print of a finite double, and the message of a refusal is one of
a fixed list.  So nothing that was submitted is ever shown, and in the style of a page the only tag in a payload is the
line break of a result.
-/
namespace InterestDesk
namespace Fault

/-- The messages of all faults. -/
def messages : List String :=
  ["Please enter valid numeric values.",
   "Missing required field: 'principal'",
   "Missing required field: 'rate'",
   "Missing required field: 'time'",
   "Missing required field: 'time_unit'",
   "Missing required field: 'interest_type'",
   "Negative values are not allowed.",
   "Time period is too long (max 1000 years).",
   "Please select an interest type.",
   "Please select a valid compounding frequency.",
   "Result too large to calculate."]

theorem message_mem {refusal : Refusal} (h : Fault refusal) : refusal.message ∈ messages := by
  have hyears : Decimal.formatShortest maxTimeYears = "1000" := by decide +kernel
  unfold Refusal.message
  cases h with
  | missingField hname =>
    simp only [Fields.requiredNames, List.mem_cons, List.not_mem_nil, or_false] at hname
    rcases hname with rfl | rfl | rfl | rfl | rfl <;> simp [messages]
  | timeTooLarge =>
    dsimp only
    rw [hyears]
    simp [messages]
  | _ => simp [messages]

end Fault

open Decimal (Amount formatGrouped)

theorem Accrual.isFinite_iff (a : Accrual) :
    a.isFinite = true ↔ a.interest.isFinite = true ∧ a.total.isFinite = true :=
  Bool.and_eq_true_iff

/-- **A report on finite amounts is fixed text around two amounts.** -/
theorem ReportStyle.exists_amounts_of_report (style : ReportStyle) (interestType : InterestType) {accrual : Accrual}
    (h : accrual.isFinite = true) :
    ∃ a b : Amount style.precision,
      formatGrouped accrual.interest style.separator style.precision = a.text style.separator ∧
      formatGrouped accrual.total style.separator style.precision = b.text style.separator ∧
      style.report interestType accrual =
        interestType.heading ++ ": " ++ a.text style.separator ++ " " ++ style.currency ++ style.lineBreak
          ++ "Total Amount: " ++ b.text style.separator ++ " " ++ style.currency := by
  obtain ⟨hinterest, htotal⟩ := accrual.isFinite_iff.1 h
  obtain ⟨a, ha⟩ := Decimal.exists_amount hinterest style.separator style.precision
  obtain ⟨b, hb⟩ := Decimal.exists_amount htotal style.separator style.precision
  refine ⟨a, b, ha, hb, ?_⟩
  unfold report amount
  rw [ha, hb]
  simp only [String.append_assoc]

/-- A text whose only tag is one line break. -/
def OneBreak (s : List Char) : Prop :=
  ∃ before after, s = before ++ "<br>".toList ++ after ∧ '<' ∉ before ∧ '<' ∉ after

theorem OneBreak.append {s : List Char} (h : OneBreak s) {before after : List Char} (hbefore : '<' ∉ before)
    (hafter : '<' ∉ after) : OneBreak (before ++ s ++ after) := by
  obtain ⟨first, last, rfl, hfirst, hlast⟩ := h
  refine ⟨before ++ first, last ++ after, by simp only [List.append_assoc], ?_, ?_⟩
  · simp [hbefore, hfirst]
  · simp [hafter, hlast]

namespace Text.Json

theorem lt_not_mem_escape {c : Char} (h : c ≠ '<') : '<' ∉ escape c := by
  have hhex : ∀ n, hexDigit n ≠ '<' := by
    intro n
    have hall : ∀ i : Fin 16, Nat.digitChar i ≠ '<' := by decide
    exact hall ⟨n % 16, Nat.mod_lt n (by decide)⟩
  unfold escape
  split <;> try decide
  split
  · simp [Ne.symm (hhex _)]
  · simpa using Ne.symm h

theorem lt_not_mem_flatMap_escape {s : List Char} (h : '<' ∉ s) : '<' ∉ s.flatMap escape := by
  rw [List.mem_flatMap]
  rintro ⟨c, hc, hmem⟩
  exact lt_not_mem_escape (fun heq => h (heq ▸ hc)) hmem

end Text.Json

/-- Escaping keeps the line break as it is and makes no other tag. -/
theorem OneBreak.escape {s : List Char} (h : OneBreak s) : OneBreak (s.flatMap Text.Json.escape) := by
  obtain ⟨before, after, rfl, hbefore, hafter⟩ := h
  refine ⟨before.flatMap Text.Json.escape, after.flatMap Text.Json.escape, ?_,
    Text.Json.lt_not_mem_flatMap_escape hbefore, Text.Json.lt_not_mem_flatMap_escape hafter⟩
  rw [List.flatMap_append, List.flatMap_append]
  rfl

/-- The text of a payload, and the payload as it is sent, have the line break of a result as their only tag. -/
def Payload.OnlyBreak : Payload → Prop
  | result text => OneBreak text.toList ∧ OneBreak (result text).json.toList
  | error message => '<' ∉ message.toList ∧ '<' ∉ (error message).json.toList

theorem Payload.onlyBreak_result {text : String} (h : OneBreak text.toList) : (result text).OnlyBreak := by
  refine ⟨h, ?_⟩
  unfold json
  rw [Text.Json.toList_object_singleton]
  exact h.escape.append (by decide) (by decide)

theorem Payload.onlyBreak_error {message : String} (h : '<' ∉ message.toList) : (error message).OnlyBreak := by
  refine ⟨h, ?_⟩
  unfold json
  rw [Text.Json.toList_object_singleton, List.mem_append, List.mem_append]
  rintro ((hm | hm) | hm)
  · revert hm
    decide
  · exact Text.Json.lt_not_mem_flatMap_escape h hm
  · revert hm
    decide

theorem oneBreak_report (interestType : InterestType) {accrual : Accrual} (h : accrual.isFinite = true) :
    OneBreak (ReportStyle.html.report interestType accrual).toList := by
  obtain ⟨a, b, -, -, htext⟩ := ReportStyle.html.exists_amounts_of_report interestType h
  have hamount : ∀ amount : Amount ReportStyle.html.precision, '<' ∉ amount.chars ReportStyle.html.separator := by
    intro amount hc
    rcases Decimal.Amount.mem_chars hc with hc | hc | hc | hc
    · revert hc; decide
    · revert hc; decide
    · revert hc; decide
    · revert hc; decide
  have hheading : '<' ∉ interestType.heading.toList := by cases interestType <;> simp [InterestType.heading]
  refine ⟨interestType.heading.toList ++ ": ".toList ++ a.chars ReportStyle.html.separator ++ " ".toList
    ++ "INR".toList, "Total Amount: ".toList ++ b.chars ReportStyle.html.separator ++ " ".toList ++ "INR".toList,
    ?_, ?_, ?_⟩
  · rw [htext]
    unfold Decimal.Amount.text
    simp only [String.toList_append, String.toList_ofList, List.append_assoc]
    rfl
  · simp [hamount a, hheading]
  · simp [hamount b]

/-- **An answer shows amounts and fixed texts only.**  A result is the heading of its interest type, two finite doubles
printed as amounts, and the currency and line break of the style.  A refusal is a fault of the form, and its message is
one of a fixed list.  In the style of a page, whoever asks and whatever the limiter holds, the payload has no tag but
the one line break of a result. -/
theorem discloses_amounts_only (fields : Fields) :
    (∀ (style : ReportStyle) (text : String), calculate fields style = .ok text →
      ∃ heading ∈ ["Simple Interest", "Compound Interest"], ∃ x y : Binary64, x.isFinite = true ∧ y.isFinite = true ∧
        ∃ a b : Amount style.precision,
          formatGrouped x style.separator style.precision = a.text style.separator ∧
          formatGrouped y style.separator style.precision = b.text style.separator ∧
          text = heading ++ ": " ++ a.text style.separator ++ " " ++ style.currency ++ style.lineBreak
            ++ "Total Amount: " ++ b.text style.separator ++ " " ++ style.currency) ∧
      (∀ (style : ReportStyle) (refusal : Refusal), calculate fields style = .error refusal →
        Fault refusal ∧ refusal.message ∈ Fault.messages) ∧
      ∀ (limiter : Limiter) (client : String) (now : Int),
        (Payload.ofOutcome ((Calculator.mk limiter .html).handle client fields now).1.outcome).OnlyBreak := by
  refine ⟨fun style text h => ?_, fun style refusal h => ?_, fun limiter client now => ?_⟩
  · obtain ⟨interestType, accrual, hfinite, rfl⟩ := exists_accrual_of_calculate h
    obtain ⟨a, b, ha, hb, htext⟩ := style.exists_amounts_of_report interestType hfinite
    obtain ⟨hinterest, htotal⟩ := accrual.isFinite_iff.1 hfinite
    have hheading : interestType.heading ∈ ["Simple Interest", "Compound Interest"] := by
      cases interestType <;> simp [InterestType.heading]
    exact ⟨_, hheading, accrual.interest, accrual.total, hinterest, htotal, a, b, ha, hb, htext⟩
  · have hfault := calculate_refuses fields style refusal h
    exact ⟨hfault, hfault.message_mem⟩
  · unfold Calculator.handle
    dsimp only
    split
    · show (Payload.ofOutcome (calculate fields .html)).OnlyBreak
      cases h : calculate fields .html with
      | ok text =>
        obtain ⟨interestType, accrual, hfinite, rfl⟩ := exists_accrual_of_calculate h
        exact Payload.onlyBreak_result (oneBreak_report interestType hfinite)
      | error refusal =>
        have hall : ∀ message ∈ Fault.messages, '<' ∉ message.toList := by simp [Fault.messages]
        exact Payload.onlyBreak_error (hall _ (calculate_refuses fields .html refusal h).message_mem)
    · refine Payload.onlyBreak_error ?_
      unfold Refusal.message
      simp

end InterestDesk
