import InterestDesk.Proofs.Admission.Check
import InterestDesk.Proofs.Desk.Transcript
import InterestDesk.Proofs.Request.Faults
/-!
# Footprints — what a run of visits shows of the limiter

A visit shows of the limiter whether it was turned away, how long to wait, and how many clients are tracked after it.
These footprints are those of the bare limiter on the clients and times (`footprints_eq`), so a form leaves none; and
what an admitted visit is told is the calculation of its form, in which the limiter has no say.
-/
namespace InterestDesk

structure Footprint where
  limited : Bool
  retryAfter : Nat
  /-- the clients tracked afterwards -/
  tracked : Nat
  deriving DecidableEq

namespace Limiter

theorem retryAfter_check_of_allowed {l : Limiter} {client : String} {now : Int}
    (h : (l.check client now).1.allowed = true) : (l.check client now).1.retryAfter = 0 := by
  unfold check Allowance.judge at h ⊢
  dsimp only at h ⊢
  split at h
  · cases h
  · rename_i hroom
    rw [if_neg hroom]

/-- The footprints of checks made in this order. -/
def footprints : Limiter → List Arrival → List Footprint
  | _, [] => []
  | l, x :: rest =>
    let (decision, after) := l.check x.client x.now
    ⟨!decision.allowed, decision.retryAfter, after.size⟩ :: after.footprints rest

end Limiter

theorem calculate_ne_rateLimited (fields : Fields) (style : ReportStyle) :
    calculate fields style ≠ .error .rateLimited := by
  intro h
  cases calculate_refuses fields style _ h

namespace Calculator

/-- The footprints of visits made in this order. -/
def footprints : Calculator → List Visit → List Footprint
  | _, [] => []
  | c, v :: rest =>
    let (response, after) := c.handle v.client v.fields v.now
    ⟨response.rateLimited, response.retryAfter, after.limiter.size⟩ :: after.footprints rest

theorem retryAfter_handle (c : Calculator) (v : Visit) :
    (c.handle v.client v.fields v.now).1.retryAfter = (c.limiter.check v.client v.now).1.retryAfter := by
  cases h : (c.limiter.check v.client v.now).1.allowed with
  | true =>
    rw [Limiter.retryAfter_check_of_allowed h]
    simp [handle, h, Response.completed]
  | false => simp [handle, h, Response.rejected]

/-- **The footprints of a run are those of the bare limiter.** -/
theorem footprints_eq : ∀ (c : Calculator) (visits : List Visit),
    c.footprints visits = c.limiter.footprints (visits.map Visit.arrival)
  | _, [] => rfl
  | c, v :: rest => by
    rw [List.map_cons, footprints, Limiter.footprints]
    dsimp only
    rw [footprints_eq _ rest, rateLimited_handle, retryAfter_handle]
    rfl

/-- What a response says, by whether it was turned away. -/
theorem response_handle (c : Calculator) (v : Visit) :
    let response := (c.handle v.client v.fields v.now).1
    (response.rateLimited = false → response.outcome = calculate v.fields c.style ∧ response.retryAfter = 0) ∧
      (response.rateLimited = true ↔ response.outcome = .error .rateLimited) := by
  cases h : (c.limiter.check v.client v.now).1.allowed with
  | true => simp [handle, h, Response.completed, calculate_ne_rateLimited]
  | false => simp [handle, h, Response.rejected]

/-- Each response of a run is that of some limiter in front of the same style. -/
theorem exists_limiter_of_mem_transcript {entry : Visit × Response} : ∀ {c : Calculator} {visits : List Visit},
    entry ∈ c.transcript visits →
      ∃ limiter, entry.2 = ((mk limiter c.style).handle entry.1.client entry.1.fields entry.1.now).1
  | _, [], h => by cases h
  | c, v :: rest, h => by
    rcases List.mem_cons.1 h with rfl | hrest
    · exact ⟨c.limiter, rfl⟩
    · exact exists_limiter_of_mem_transcript (c := (c.handle v.client v.fields v.now).2) hrest

/-- **The quota knows nothing of the forms, and the answers nothing of the quota.**  A run leaves the footprints of the
bare limiter on its clients and times, so it leaves the same ones whatever the forms hold and whatever the style is.  A
visit that is not turned away is told the calculation of its form and no wait.  One that is turned away is told that,
which the calculation itself never says. -/
theorem separates_quota_from_form (c : Calculator) (visits : List Visit) :
    c.footprints visits = c.limiter.footprints (visits.map Visit.arrival) ∧
      (∀ (style : ReportStyle) (others : List Visit), others.map Visit.arrival = visits.map Visit.arrival →
        (mk c.limiter style).footprints others = c.footprints visits) ∧
      (∀ entry ∈ c.transcript visits,
        (entry.2.rateLimited = false →
          entry.2.outcome = calculate entry.1.fields c.style ∧ entry.2.retryAfter = 0) ∧
        (entry.2.rateLimited = true ↔ entry.2.outcome = .error .rateLimited)) ∧
      ∀ (fields : Fields) (style : ReportStyle), calculate fields style ≠ .error .rateLimited := by
  refine ⟨c.footprints_eq visits, fun style others h => ?_, fun entry hentry => ?_, calculate_ne_rateLimited⟩
  · rw [footprints_eq, footprints_eq, h]
  · obtain ⟨limiter, heq⟩ := exists_limiter_of_mem_transcript hentry
    rw [heq]
    exact response_handle (mk limiter c.style) entry.1

/-- Three visits by a clock that goes back, with empty forms on a page and with full ones in plain text: the second is
turned away for twelve, and the footprints are the same. -/
theorem footprints_of_full_forms :
    let c : Calculator := ⟨.ofPlan ⟨⟨1, 10⟩, 0, 0⟩, .html⟩
    let full := Fields.firstOf [("principal", "1,000"), ("rate", "5"), ("time", "2"), ("time_unit", "Years"),
      ("interest_type", "simple")]
    let visits : List Visit := [⟨"a", .empty, 5⟩, ⟨"a", .empty, 3⟩, ⟨"b", .empty, 4⟩]
    let others : List Visit := [⟨"a", full, 5⟩, ⟨"a", full, 3⟩, ⟨"b", full, 4⟩]
    others.map Visit.arrival = visits.map Visit.arrival ∧
      (mk c.limiter .plain).footprints others = c.footprints visits ∧
      c.footprints visits = [⟨false, 0, 1⟩, ⟨true, 12, 1⟩, ⟨false, 0, 2⟩] := by
  intro c full visits others
  have h := separates_quota_from_form c visits
  exact ⟨rfl, h.2.1 .plain others rfl, h.1.trans (by decide)⟩

end Calculator
end InterestDesk
