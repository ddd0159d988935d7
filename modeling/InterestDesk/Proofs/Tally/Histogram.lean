import InterestDesk.Proofs.Tally.Lines
import InterestDesk.Proofs.Tally.Run
import Mathlib.Algebra.Order.Field.Rat
import Mathlib.Algebra.Order.Field.Basic
import Mathlib.Tactic.NormNum
/-!
# Histogram — the buckets against the durations they are read for

`Shows` says which number is read for a series.  A bucket is labelled with a bound in seconds and read as the number of
durations at most that bound, but it counts those under it (`shows_under`).  So it misses the durations equal to its
bound, and shows what it is read as only if there are none (`buckets_show_shorter`).
-/
namespace InterestDesk

/-- The recorded durations in seconds. -/
def Note.seconds (notes : List Note) : List ℚ :=
  (durations notes).map fun micros => micros.toNat / 1000000

theorem Note.countP_seconds (notes : List Note) (bound : Nat) :
    (seconds notes).countP (· < (bound : ℚ) / 1000000) = (durations notes).countP (·.toNat < bound) := by
  unfold seconds
  rw [List.countP_map]
  refine List.countP_congr fun micros _ => ?_
  have hlt : (micros.toNat : ℚ) / 1000000 < bound / 1000000 ↔ micros.toNat < bound := by
    rw [div_lt_div_iff_of_pos_right (by norm_num), Nat.cast_lt]
  simp [hlt]

/-- What is at most a bound is under it or equal to it. -/
theorem countP_le (values : List ℚ) (bound : ℚ) :
    values.countP (· ≤ bound) = values.countP (· < bound) + values.count bound := by
  induction values with
  | nil => rfl
  | cons value rest ih =>
    rw [List.countP_cons, List.countP_cons, List.count_cons, ih]
    rcases lt_trichotomy value bound with hlt | heq | hgt
    · simp [hlt, hlt.le, hlt.ne, Nat.add_right_comm]
    · simp [heq, Nat.add_assoc]
    · simp [not_le.2 hgt, not_lt.2 hgt.le, hgt.ne']

/-- An element is picked alone if no other has its key. -/
theorem filter_eq_singleton {α β : Type} [BEq β] [LawfulBEq β] (key : α → β) {items : List α} {item : α}
    (hmem : item ∈ items) (hcount : (items.map key).count (key item) = 1) :
    items.filter (key · == key item) = [item] := by
  rw [List.count_eq_countP, List.countP_map, List.countP_eq_length_filter] at hcount
  obtain ⟨found, hfound⟩ := List.length_eq_one_iff.1 hcount
  have hitem : item ∈ items.filter (key · == key item) := List.mem_filter.2 ⟨hmem, beq_self_eq_true _⟩
  have hsingle : items.filter (key · == key item) = [found] := hfound
  rw [hsingle, List.mem_singleton] at hitem
  rw [hsingle, hitem]

namespace Exposition

/-- Whether just one line of a text is about a series, and gives it this value. -/
def Shows (text name : String) (value : Nat) : Prop :=
  (linesOf text).filter (series · == name) = [name ++ " " ++ toString value]

theorem toString_injective {m n : Nat} (h : toString m = toString n) : m = n := by
  have hdigits := congrArg (fun s : String => Nat.ofDigitChars 10 s.toList 0) h
  simpa using hdigits

theorem Shows.iff_eq {text name : String} {value : Nat} (h : Shows text name value) (other : Nat) :
    Shows text name other ↔ value = other := by
  constructor
  · intro hother
    have hline := congrArg String.toList (List.singleton_inj.1 (h.symm.trans hother))
    simp only [String.toList_append, List.append_cancel_left_eq] at hline
    exact toString_injective (String.toList_inj.1 hline)
  · rintro rfl
    exact h

/-- A line of an exposition shows its value if its series is that of no other line. -/
theorem shows_of_mem {t : Tally} {uptime value : Nat} {name : String} (hname : ' ' ∉ name.toList)
    (hcount : allSeries.count name = 1) (hmem : name ++ " " ++ toString value ∈ lines t uptime) :
    Shows (text t uptime) name value := by
  have hseries : series (name ++ " " ++ toString value) = name := by
    rw [String.append_assoc]
    exact series_word hname _
  unfold Shows
  rw [linesOf_text]
  rw [← map_series_lines t uptime, ← hseries] at hcount
  have hsingle := filter_eq_singleton series (List.mem_append_left [""] hmem) hcount
  rwa [hseries] at hsingle

/-- The series of a bucket by its bound. -/
def bucketSeries (bound : String) : String :=
  "interest_calc_request_duration_bucket\x7ble=\"" ++ bound ++ "\"\x7d"

theorem bucket_eq (bound : String) (count : UInt64) :
    bucket bound count = bucketSeries bound ++ " " ++ toString count.toNat := by
  have hlead : "interest_calc_request_duration_bucket\x7ble=\"" =
      namespaceName ++ "request_duration_bucket\x7ble=\"" := rfl
  unfold bucket sample bucketSeries
  rw [hlead]
  simp only [String.append_assoc]

theorem lines_of_durations {t : Tally} {uptime : Nat} {line : String} (h : line ∈ durations t) :
    line ∈ lines t uptime := by
  unfold lines
  simp only [List.mem_append]
  exact .inl (.inl (.inr h))

theorem shows_bucket (t : Tally) (uptime : Nat) :
    ∀ entry ∈ t.latency.cumulative, Shows (text t uptime) (bucketSeries entry.1) entry.2.toNat := by
  have hnames : ∀ bound ∈ ["0.001", "0.01", "0.1", "1"], ' ' ∉ (bucketSeries bound).toList ∧
      allSeries.count (bucketSeries bound) = 1 := by decide +kernel
  intro entry hentry
  have hbound : entry.1 ∈ t.latency.cumulative.map Prod.fst := List.mem_map_of_mem hentry
  obtain ⟨hname, hcount⟩ := hnames entry.1 hbound
  refine shows_of_mem hname hcount (lines_of_durations ?_)
  rw [← bucket_eq]
  exact List.mem_append_left _ (List.mem_append_right _ (List.mem_map.2 ⟨entry, hentry, rfl⟩))

theorem shows_all (t : Tally) (uptime : Nat) :
    ∀ name ∈ [bucketSeries "+Inf", "interest_calc_request_duration_count"],
      Shows (text t uptime) name t.latencyCount.toNat := by
  have hnames : ∀ name ∈ [bucketSeries "+Inf", "interest_calc_request_duration_count"], ' ' ∉ name.toList ∧
      allSeries.count name = 1 := by decide +kernel
  intro name hmem
  obtain ⟨hname, hcount⟩ := hnames name hmem
  refine shows_of_mem hname hcount (lines_of_durations (List.mem_append_right _ ?_))
  simp only [List.mem_cons, List.not_mem_nil, or_false] at hmem
  rcases hmem with rfl | rfl
  · rw [← bucket_eq]
    exact List.mem_cons_self
  · exact List.mem_cons_of_mem _ (List.mem_cons_of_mem _ List.mem_cons_self)

/-- Short of the wrap, a bounded bucket shows how many durations lie under its bound. -/
theorem shows_under {notes : List Note} (h : (Note.durations notes).length < 2 ^ 64) (uptime : Nat) :
    ∀ bound ∈ LatencyBuckets.bounds, Shows (text (Tally.after notes) uptime) (bucketSeries bound.1)
      ((Note.durations notes).countP (·.toNat < bound.2)) := by
  intro bound hbound
  have hentry := shows_bucket (Tally.after notes) uptime
  rw [Tally.cumulate_after notes, List.forall_mem_map] at hentry
  have hshows := hentry bound hbound
  rwa [UInt64.toNat_ofNat_of_lt' (Nat.lt_of_le_of_lt List.countP_le_length h)] at hshows

end Exposition

open Exposition (Shows bucketSeries)

/-- **A bucket shows the durations under its bound, not those at most its bound.**  Whatever a tally was told, with
fewer than `2^64` durations among it, each bounded bucket shows how many durations are shorter than its bound.  So it
shows how many are at most its bound exactly if none is equal to it.  The bucket without a bound and the count show
how many there are. -/
theorem buckets_show_shorter (notes : List Note) (uptime : Nat) (h : (Note.durations notes).length < 2 ^ 64) :
    let text := Exposition.text (Tally.after notes) uptime
    let seconds := Note.seconds notes
    (∀ bound ∈ [("0.001", (1 / 1000 : ℚ)), ("0.01", 1 / 100), ("0.1", 1 / 10), ("1", 1)],
        Shows text (bucketSeries bound.1) (seconds.countP (· < bound.2)) ∧
          (Shows text (bucketSeries bound.1) (seconds.countP (· ≤ bound.2)) ↔ bound.2 ∉ seconds)) ∧
      Shows text (bucketSeries "+Inf") seconds.length ∧
      Shows text "interest_calc_request_duration_count" seconds.length := by
  intro text seconds
  have hall := Exposition.shows_all (Tally.after notes) uptime
  rw [Tally.latencyCount_after, UInt64.toNat_ofNat_of_lt' h, ← List.length_map, List.forall_mem_cons,
    List.forall_mem_singleton] at hall
  refine ⟨?_, hall⟩
  have hbound : ∀ (label : String) (micros : Nat) (bound : ℚ), (label, micros) ∈ LatencyBuckets.bounds →
      bound = micros / 1000000 → Shows text (bucketSeries label) (seconds.countP (· < bound)) ∧
        (Shows text (bucketSeries label) (seconds.countP (· ≤ bound)) ↔ bound ∉ seconds) := by
    rintro label micros bound hmem rfl
    have hunder := Exposition.shows_under h uptime (label, micros) hmem
    rw [← Note.countP_seconds] at hunder
    refine ⟨hunder, ?_⟩
    rw [hunder.iff_eq, countP_le, Nat.left_eq_add, List.count_eq_zero]
  simp only [List.forall_mem_cons]
  exact ⟨hbound "0.001" 1000 _ (by decide) (by norm_num), hbound "0.01" 10000 _ (by decide) (by norm_num),
    hbound "0.1" 100000 _ (by decide) (by norm_num), hbound "1" 1000000 _ (by decide) (by norm_num),
    List.forall_mem_nil _⟩

/-- With one request just under a millisecond and one of a millisecond, the first bucket shows one of the two that take
at most a millisecond. -/
theorem buckets_show_shorter_at_bound :
    let notes := [.ended .computed 999, .tracked 1, .ended .error 1000, .ended .rateLimited 5000000]
    let text := Exposition.text (Tally.after notes) 5
    (Note.durations notes).length < 2 ^ 64 ∧ Shows text (bucketSeries "0.001") 1 ∧
      ¬ Shows text (bucketSeries "0.001") 2 ∧ (Note.seconds notes).countP (· ≤ 1 / 1000) = 2 ∧
      Shows text (bucketSeries "+Inf") 3 ∧ Shows text "interest_calc_request_duration_count" 3 := by
  intro notes text
  have hlt : (Note.durations notes).length < 2 ^ 64 := by decide
  obtain ⟨hbounds, hall, hcount⟩ := buckets_show_shorter notes 5 hlt
  obtain ⟨hunder, -⟩ := hbounds ("0.001", 1 / 1000) List.mem_cons_self
  rw [show (Note.seconds notes).countP (· < 1 / 1000) = 1 by decide +kernel] at hunder
  exact ⟨hlt, hunder, fun htwo => absurd ((hunder.iff_eq 2).1 htwo) (by decide), by decide +kernel, hall, hcount⟩

/-- One request of a millisecond takes at most a millisecond, and the bucket of that bound shows none. -/
theorem bucket_misses_millisecond :
    let notes := [.ended .computed 1000]
    let text := Exposition.text (Tally.after notes) 0
    (Note.seconds notes).countP (· ≤ 1 / 1000) = 1 ∧ Shows text (bucketSeries "0.001") 0 ∧
      ¬ Shows text (bucketSeries "0.001") 1 := by
  intro notes text
  have hnone : Shows text (bucketSeries "0.001") 0 := Exposition.shows_under (by decide) 0 ("0.001", 1000) (by decide)
  exact ⟨by decide +kernel, hnone, fun hone => absurd ((hnone.iff_eq 1).1 hone) (by decide)⟩

end InterestDesk
