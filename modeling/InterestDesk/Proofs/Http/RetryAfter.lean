import InterestDesk.Proofs.Admission.Memory
import InterestDesk.Proofs.Admission.Retry
import InterestDesk.Proofs.Desk.Footprints
import InterestDesk.Proofs.Http.Counting
import Mathlib.Algebra.Group.Nat.Defs
/-!
# RetryAfter — the wait of a rejected client in whole seconds

A wait is a length of time, so it has at most `2^64 - 1` whole seconds and a part of one more (`wait_le_longest`).
Rounding up adds one to 64 bits of seconds.  What is said is exact (`retryAfterSeconds?_eq_some_iff_wholeSeconds`); past
the last whole second the sum leaves its bits, and the client is left without an answer (`retryAfter_wholeSeconds`).
-/
namespace InterestDesk
namespace Clock

/-- The first second of the clock is `-2^63`. -/
def firstInstant : Int :=
  -9223372036854775808 * nanosPerSecond

/-- The longest length of time: `2^64 - 1` seconds, and all but a nanosecond of one more. -/
def longest : Nat :=
  seconds (2 ^ 64 - 1) + 999999999

theorem secondsUp_le_iff {length n : Nat} : secondsUp length ≤ n ↔ length ≤ seconds n := by
  unfold secondsUp seconds nanosPerSecond
  split <;> omega

theorem lastInstant_sub_firstInstant : lastInstant - firstInstant = longest := by
  decide

theorem after?_eq_some_iff {t free : Int} {length : Nat} :
    after? t length = some free ↔ free = t + length ∧ free ≤ lastInstant := by
  unfold after?
  split
  · rename_i hle
    rw [Option.some_inj]
    exact ⟨fun heq => heq ▸ ⟨rfl, hle⟩, fun h => h.1.symm⟩
  · rename_i hgt
    exact ⟨nofun, fun h => absurd (h.1 ▸ h.2) hgt⟩

end Clock

namespace Http

open Clock (seconds secondsUp longest)

/-- A count of whole seconds to wait: at least one, enough, and no more than enough. -/
structure WholeSeconds (wait n : Nat) : Prop where
  pos : 1 ≤ n
  enough : wait ≤ seconds n
  least : 1 < n → seconds (n - 1) < wait

theorem wholeSeconds_secondsUp (wait : Nat) : WholeSeconds wait (max 1 (secondsUp wait)) := by
  refine ⟨Nat.le_max_left 1 _, Clock.secondsUp_le_iff.1 (Nat.le_max_right 1 _), fun hlt => ?_⟩
  rw [← Nat.not_le, ← Clock.secondsUp_le_iff]
  omega

theorem wholeSeconds_iff {wait n : Nat} : WholeSeconds wait n ↔ n = max 1 (secondsUp wait) := by
  refine ⟨fun h => ?_, fun h => h ▸ wholeSeconds_secondsUp wait⟩
  have hpos := h.pos
  have henough := Clock.secondsUp_le_iff.2 h.enough
  have hleast : 1 < n → n - 1 < secondsUp wait := fun hlt => by
    rw [← Nat.not_le, Clock.secondsUp_le_iff, Nat.not_le]
    exact h.least hlt
  omega

/-- **What a header says is exact.** -/
theorem retryAfterSeconds?_eq_some_iff_wholeSeconds {wait n : Nat} :
    retryAfterSeconds? wait = some n ↔ WholeSeconds wait n ∧ n < 2 ^ 64 := by
  have hsize : UInt64.size = 2 ^ 64 := rfl
  rw [retryAfterSeconds?_eq_some_iff, wholeSeconds_iff, hsize]
  omega

/-- **What it cannot say are the waits past the last whole second.** -/
theorem retryAfterSeconds?_eq_none_iff_lt {wait : Nat} :
    retryAfterSeconds? wait = none ↔ seconds (2 ^ 64 - 1) < wait := by
  rw [retryAfterSeconds?_eq_none_iff, ← Nat.not_le (b := seconds (2 ^ 64 - 1)), ← Clock.secondsUp_le_iff, Nat.not_le]
  exact Iff.rfl

end Http

namespace Allowance

open Clock (longest)

/-- **A wait is a length of time if the window is one.** -/
theorem wait_le_longest {a : Allowance} (hwindow : a.window ≤ longest) {now : Int} (hnow : Clock.firstInstant ≤ now)
    (times : List Int) : a.wait now times ≤ longest := by
  unfold wait
  split
  · rename_i free hfree
    split
    · obtain ⟨oldest, -, hafter⟩ := Option.bind_eq_some_iff.1 hfree
      have hlast := (Clock.after?_eq_some_iff.1 hafter).2
      have hspan := Clock.lastInstant_sub_firstInstant
      omega
    · exact hwindow
  · exact hwindow

/-- **A wait is at most a window if no time is ahead of the clock.** -/
theorem wait_le_window {a : Allowance} {now : Int} {times : List Int} (h : ∀ t ∈ times, t ≤ now) :
    a.wait now times ≤ a.window := by
  unfold wait
  split
  · rename_i free hfree
    split
    · obtain ⟨oldest, hmin, hafter⟩ := Option.bind_eq_some_iff.1 hfree
      have hpast := h oldest (List.min?_mem hmin)
      have hfree := (Clock.after?_eq_some_iff.1 hafter).1
      omega
    · exact Nat.le_refl _
  · exact Nat.le_refl _

end Allowance

namespace Http

open Clock (seconds secondsUp longest)

/-- The answer to a visit that is turned away gives the wait in seconds, if there is one. -/
theorem map_retryAfter?_answerOf?_handle {c : Calculator} {v : Visit}
    (h : (c.limiter.check v.client v.now).1.allowed = false) :
    (answerOf? (.ok (c.handle v.client v.fields v.now).1)).map HttpResponse.retryAfter? =
      (retryAfterSeconds? (c.limiter.check v.client v.now).1.retryAfter).map fun n => some (toString n) := by
  have hlimited : (c.handle v.client v.fields v.now).1.rateLimited = true := by
    rw [Calculator.rateLimited_handle, h]
    rfl
  unfold answerOf?
  dsimp only
  rw [if_pos hlimited, Calculator.retryAfter_handle, Option.map_map]
  refine congrArg (Option.map · _) (funext fun n => ?_)
  exact (HttpResponse.retryAfter?_json ..).trans (Headers.first?_singleton _ _)

/-- **The wait in the answer to a rejected client is exact in whole seconds, and cannot be said past the last second
that 64 bits can count.**  Whatever a limiter was asked before, its window being a length of time, the wait of a visit
that it turns away is a length of time too.  Rounded up it fits into 64 bits exactly if it has at most `2^64 - 1`
seconds, and exactly then the client is answered, with the wait in whole seconds; with a part of a second more there
is no answer.  By a clock that never goes back the wait is at most the window. -/
theorem retryAfter_wholeSeconds (plan : LimiterPlan) (hwindow : plan.allowance.window ≤ longest) (past : List Arrival)
    (v : Visit) (style : ReportStyle) (hnow : Clock.firstInstant ≤ v.now)
    (hrejected : (((Limiter.ofPlan plan).after past).check v.client v.now).1.allowed = false) :
    let calculator := Calculator.mk ((Limiter.ofPlan plan).after past) style
    let wait := (((Limiter.ofPlan plan).after past).check v.client v.now).1.retryAfter
    let answer := answerOf? (.ok (calculator.handle v.client v.fields v.now).1)
    answer.map HttpResponse.retryAfter? = (retryAfterSeconds? wait).map (fun n => some (toString n)) ∧
      (∀ n, retryAfterSeconds? wait = some n ↔ WholeSeconds wait n ∧ n < 2 ^ 64) ∧
      wait ≤ longest ∧
      (secondsUp wait < 2 ^ 64 ↔ wait ≤ seconds (2 ^ 64 - 1)) ∧
      (retryAfterSeconds? wait = none ↔ seconds (2 ^ 64 - 1) < wait) ∧
      (answer = none ↔ seconds (2 ^ 64 - 1) < wait) ∧
      ((∀ x ∈ past, x.now ≤ v.now) → wait ≤ plan.allowance.window) := by
  intro calculator wait answer
  have htidy := (Limiter.tidy_ofPlan plan).after past
  have hallowance : ((Limiter.ofPlan plan).after past).allowance = plan.allowance := Limiter.allowance_after _ past
  obtain ⟨htimes, -, hwait⟩ := Limiter.times_check_of_rejected htidy hrejected
  rw [hallowance] at hwait
  have hlongest : wait ≤ longest := Nat.le_trans (Nat.le_of_eq hwait) (Allowance.wait_le_longest hwindow hnow _)
  have hheader : answer.map HttpResponse.retryAfter? = (retryAfterSeconds? wait).map fun n => some (toString n) :=
    map_retryAfter?_answerOf?_handle hrejected
  have hnone : retryAfterSeconds? wait = none ↔ seconds (2 ^ 64 - 1) < wait := retryAfterSeconds?_eq_none_iff_lt
  refine ⟨hheader, fun n => retryAfterSeconds?_eq_some_iff_wholeSeconds, hlongest, ?_, hnone, ?_, fun hpast => ?_⟩
  · rw [← Clock.secondsUp_le_iff]
    omega
  · rw [← hnone, ← Option.map_eq_none_iff, hheader, Option.map_eq_none_iff]
  · refine Nat.le_trans (Nat.le_of_eq hwait) (Allowance.wait_le_window fun t ht => ?_)
    rw [htimes] at ht
    obtain ⟨entry, hentry, -, -, rfl⟩ :=
      Log.mem_admissions.1 (Limiter.mem_admissions_of_mem_times plan (List.mem_filter.1 ht).1)
    exact hpast entry.1 (Limiter.fst_mem_of_mem_log hentry)

/-- A nanosecond more than a minute is asked for as 61 seconds, and the longest window in whole seconds as it is; a
nanosecond more than that is not answered. -/
theorem retryAfter_wholeSeconds_edges :
    let minute : LimiterPlan := ⟨⟨1, seconds 60 + 1⟩, 0, 0⟩
    let ages : LimiterPlan := ⟨⟨0, seconds (2 ^ 64 - 1)⟩, 0, 0⟩
    let beyond : LimiterPlan := ⟨⟨0, seconds (2 ^ 64 - 1) + 1⟩, 0, 0⟩
    let visit : Visit := ⟨"a", Fields.empty, 5⟩
    let answer (l : Limiter) := answerOf? (.ok ((Calculator.mk l .plain).handle visit.client visit.fields visit.now).1)
    (minute.allowance.window ≤ longest ∧ Clock.firstInstant ≤ visit.now ∧
        (((Limiter.ofPlan minute).after [⟨"a", 5⟩]).check visit.client visit.now).1.allowed = false ∧
        (answer ((Limiter.ofPlan minute).after [⟨"a", 5⟩])).map HttpResponse.retryAfter? = some (some "61") ∧
        WholeSeconds (seconds 60 + 1) 61) ∧
      (ages.allowance.window ≤ longest ∧
        (((Limiter.ofPlan ages).after []).check visit.client visit.now).1.allowed = false ∧
        (answer ((Limiter.ofPlan ages).after [])).map HttpResponse.retryAfter? = some (some "18446744073709551615") ∧
        WholeSeconds (seconds (2 ^ 64 - 1)) 18446744073709551615) ∧
      beyond.allowance.window ≤ longest ∧
        (((Limiter.ofPlan beyond).after []).check visit.client visit.now).1.allowed = false ∧
        answer ((Limiter.ofPlan beyond).after []) = none := by
  intro minute ages beyond visit answer
  have hminute : (((Limiter.ofPlan minute).after [⟨"a", 5⟩]).check visit.client visit.now).1 =
    ⟨false, 1, 0, seconds 60 + 1⟩ := by decide +kernel
  have hages : (((Limiter.ofPlan ages).after []).check visit.client visit.now).1 =
    ⟨false, 0, 0, seconds (2 ^ 64 - 1)⟩ := by decide +kernel
  have hbeyond : (((Limiter.ofPlan beyond).after []).check visit.client visit.now).1 =
    ⟨false, 0, 0, seconds (2 ^ 64 - 1) + 1⟩ := by decide +kernel
  have hsixtyOne : retryAfterSeconds? (seconds 60 + 1) = some 61 := by decide +kernel
  have hmost : retryAfterSeconds? (seconds (2 ^ 64 - 1)) = some 18446744073709551615 := by decide +kernel
  obtain ⟨hheader, hexact, -⟩ := retryAfter_wholeSeconds minute (by decide) [⟨"a", 5⟩] visit .plain (by decide)
    (by rw [hminute])
  obtain ⟨hheader', hexact', -⟩ := retryAfter_wholeSeconds ages (by decide) [] visit .plain (by decide)
    (by rw [hages])
  obtain ⟨-, -, -, -, -, hunanswered, -⟩ := retryAfter_wholeSeconds beyond (by decide) [] visit .plain (by decide)
    (by rw [hbeyond])
  rw [hminute, hsixtyOne] at hheader
  rw [hages, hmost] at hheader'
  rw [hminute] at hexact
  rw [hages] at hexact'
  rw [hbeyond] at hunanswered
  exact ⟨⟨by decide, by decide, by rw [hminute], hheader, ((hexact 61).1 hsixtyOne).1⟩,
    ⟨by decide, by rw [hages], hheader', ((hexact' 18446744073709551615).1 hmost).1⟩,
    by decide, by rw [hbeyond], hunanswered.2 (Nat.lt_succ_self _)⟩

/-- A client kept out for the longest window has a wait of `2^64` seconds.  No number is said, and its request, though
it has been counted, is not answered. -/
theorem retryAfter_of_longest :
    let plan : LimiterPlan := ⟨⟨0, longest⟩, 0, 0⟩
    let request : HttpRequest := ⟨"POST", Route.calculation.path, [], .v4 #v[192, 0, 2, 1], []⟩
    let served := serve (.start ⟨.ofPlan plan, .html⟩) ⟨0, 0, 0⟩ request
    ((Limiter.ofPlan plan).check (clientId request.headers request.peer) 0).1 = ⟨false, 0, 0, longest⟩ ∧
      WholeSeconds longest (2 ^ 64) ∧ retryAfterSeconds? longest = none ∧
      served.1 = none ∧ served.2.tally.rateLimited = 1 := by
  intro plan request served
  exact ⟨by decide +kernel, wholeSeconds_iff.2 (by decide), by decide +kernel, by decide +kernel, by decide +kernel⟩

end Http
end InterestDesk
