import InterestDesk.Admission.Clock
/-!
# Window — the admitted requests of one client

A client may have at most `limit` requests younger than `window`.  A request exactly one window old no longer counts,
one ahead of the clock still does, and only admitted requests are remembered, so no more than `limit` ever are.
-/
namespace InterestDesk

/-- How many requests a client may make in a window of time. -/
structure Allowance where
  limit : Nat
  window : Nat
  deriving DecidableEq

namespace Allowance

def standard : Allowance :=
  ⟨30, Clock.seconds 60⟩

/-- Whether a request made at `t` still counts at `now`. -/
def isLive (a : Allowance) (now t : Int) : Bool :=
  now < t + a.window

end Allowance

structure Decision where
  allowed : Bool
  limit : Nat
  /-- requests the client may still make in the window -/
  remaining : Nat
  /-- how long until the oldest remembered request stops counting; zero when allowed -/
  retryAfter : Nat
  deriving DecidableEq

namespace Allowance

/-- How long a client with these live times has to wait: until the oldest leaves the window, or a whole window when
there is none or the clock cannot show that instant. -/
def wait (a : Allowance) (now : Int) (times : List Int) : Nat :=
  match times.min?.bind (Clock.after? · a.window) with
  | some free => if now ≤ free then (free - now).toNat else a.window
  | none => a.window

/-- Decides on a request at `now`, and gives the times to remember. -/
def judge (a : Allowance) (now : Int) (times : List Int) : Decision × List Int :=
  let live := times.filter (a.isLive now)
  if a.limit ≤ live.length then
    (⟨false, a.limit, 0, a.wait now live⟩, live)
  else
    (⟨true, a.limit, a.limit - (live.length + 1), 0⟩, live ++ [now])

theorem judge_allowed_iff (a : Allowance) (now : Int) (times : List Int) :
    (a.judge now times).1.allowed = true ↔ (times.filter (a.isLive now)).length < a.limit := by
  by_cases h : a.limit ≤ (times.filter (a.isLive now)).length
  · simp [judge, h]
  · simp [judge, h, Nat.lt_of_not_le h]

/-- The live times are kept, and the time of an admitted request is added. -/
theorem judge_times (a : Allowance) (now : Int) (times : List Int) :
    (a.judge now times).2 = times.filter (a.isLive now) ++ if (a.judge now times).1.allowed then [now] else [] := by
  by_cases h : a.limit ≤ (times.filter (a.isLive now)).length
  · simp [judge, h]
  · simp [judge, h]

theorem length_judge_times_le (a : Allowance) (now : Int) {times : List Int} (h : times.length ≤ a.limit) :
    (a.judge now times).2.length ≤ a.limit := by
  have hf := Nat.le_trans (List.length_filter_le (a.isLive now) times) h
  by_cases hl : a.limit ≤ (times.filter (a.isLive now)).length
  · simpa [judge, hl] using hf
  · simp only [judge, if_neg hl, List.length_append, List.length_singleton]
    omega

end Allowance
end InterestDesk
