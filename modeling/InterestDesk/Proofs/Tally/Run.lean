import InterestDesk.Tally
import Mathlib.Data.List.Induction
/-!
# Run — what a tally holds after all it was told

A tally is told of requests that have ended and of how many clients are tracked.  Up to the wrap
of its words, each cumulated bucket then holds how many of the durations lie under its bound (`Tally.cumulate_after`),
and the count how many there are (`Tally.latencyCount_after`).
-/
namespace InterestDesk

/-- What a tally is told. -/
inductive Note where
  | ended (outcome : Outcome) (micros : UInt64)
  | tracked (clients : Nat)

namespace Note

/-- The duration that a note adds. -/
def micros? : Note → Option UInt64
  | ended _ micros => some micros
  | tracked _ => none

/-- The recorded durations, in order. -/
def durations (notes : List Note) : List UInt64 :=
  notes.filterMap micros?

theorem durations_concat_ended (notes : List Note) (outcome : Outcome) (micros : UInt64) :
    durations (notes ++ [ended outcome micros]) = durations notes ++ [micros] := by
  simp [durations, micros?]

theorem durations_concat_tracked (notes : List Note) (clients : Nat) :
    durations (notes ++ [tracked clients]) = durations notes := by
  simp [durations, micros?]

end Note

namespace LatencyBuckets

/-- The bounded buckets by their bounds, as written in seconds and in microseconds. -/
def bounds : List (String × Nat) :=
  [("0.001", 1000), ("0.01", 10000), ("0.1", 100000), ("1", 1000000)]

/-- Whether the cumulated buckets hold, up to the wrap, how many durations lie under their bounds. -/
def Cumulate (b : LatencyBuckets) (durations : List UInt64) : Prop :=
  b.cumulative = bounds.map fun bound => (bound.1, UInt64.ofNat (durations.countP (·.toNat < bound.2)))

/-- **A duration counts in each cumulated bucket whose bound it lies under, and in no other.** -/
theorem cumulative_count (b : LatencyBuckets) (micros : UInt64) :
    (b.count micros).cumulative =
      List.zipWith (fun entry bound => (entry.1, if micros.toNat < bound.2 then entry.2 + 1 else entry.2))
        b.cumulative bounds := by
  have hmilli : micros < 1000 ↔ micros.toNat < 1000 := UInt64.lt_iff_toNat_lt
  have hten : micros < 10000 ↔ micros.toNat < 10000 := UInt64.lt_iff_toNat_lt
  have hhundred : micros < 100000 ↔ micros.toNat < 100000 := UInt64.lt_iff_toNat_lt
  have hsecond : micros < 1000000 ↔ micros.toNat < 1000000 := UInt64.lt_iff_toNat_lt
  unfold count
  simp only [hmilli, hten, hhundred, hsecond]
  -- The range that a duration falls in decides on all four bounds at once.
  split_ifs <;>
    simp only [cumulative, bounds, List.zipWith_cons_cons, List.zipWith_nil_left, List.cons.injEq, Prod.mk.injEq,
      true_and, and_true] <;>
    grind

theorem Cumulate.count {b : LatencyBuckets} {durations : List UInt64} (h : b.Cumulate durations) (micros : UInt64) :
    (b.count micros).Cumulate (durations ++ [micros]) := by
  unfold Cumulate at h ⊢
  rw [cumulative_count, h, List.zipWith_map_left, List.zipWith_self]
  refine List.map_congr_left fun bound _ => ?_
  rw [List.countP_append, UInt64.ofNat_add]
  by_cases hlt : micros.toNat < bound.2
  · simp [hlt]
  · simp [hlt]

end LatencyBuckets

namespace Tally

def note (t : Tally) : Note → Tally
  | .ended outcome micros => t.record outcome micros
  | .tracked clients => t.noteActiveClients clients

/-- The tally after it was told all this, in order. -/
def after (notes : List Note) : Tally :=
  notes.foldl note fresh

theorem after_concat (notes : List Note) (x : Note) : after (notes ++ [x]) = (after notes).note x :=
  List.foldl_append

theorem latency_record (t : Tally) (outcome : Outcome) (micros : UInt64) :
    (t.record outcome micros).latency = t.latency.count micros := by
  cases outcome <;> rfl

/-- **The cumulated buckets hold how many durations lie under their bounds.** -/
theorem cumulate_after (notes : List Note) : (after notes).latency.Cumulate (Note.durations notes) := by
  induction notes using List.reverseRecOn with
  | nil => rfl
  | append_singleton past x ih =>
    rw [after_concat]
    cases x with
    | ended outcome micros =>
      rw [Note.durations_concat_ended, note, latency_record]
      exact ih.count micros
    | tracked clients =>
      rw [Note.durations_concat_tracked]
      exact ih

/-- **The count holds how many durations there are.** -/
theorem latencyCount_after (notes : List Note) :
    (after notes).latencyCount = UInt64.ofNat (Note.durations notes).length := by
  induction notes using List.reverseRecOn with
  | nil => rfl
  | append_singleton past x ih =>
    rw [after_concat]
    cases x with
    | ended outcome micros =>
      rw [Note.durations_concat_ended, note, (record_total ..).2, ih, List.length_append, UInt64.ofNat_add]
      rfl
    | tracked clients =>
      rw [Note.durations_concat_tracked]
      exact ih

end Tally
end InterestDesk
