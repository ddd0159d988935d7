import InterestDesk.Proofs.Tally.Histogram
/-!
# Balance — the counters of a tally against each other

Every recorded request raises the total, one outcome, one bucket and the count by one, so up to the wrap of the words
these four sums are the same after any calls (`Tally.balanced_after`).  With fewer than `2^64` requests nothing has
wrapped: the cumulated buckets do not shrink from one bound to the next, which is to say that no addition of theirs
overflows (`toNat_add_of_le`), and none is above the count of all.
-/
namespace InterestDesk

/-- A sum of words that is not below its first part has not wrapped. -/
theorem toNat_add_of_le {a b : UInt64} (h : a ≤ a + b) : (a + b).toNat = a.toNat + b.toNat := by
  rw [UInt64.le_iff_toNat_le] at h
  have ha := a.toNat_lt
  have hb := b.toNat_lt
  rw [UInt64.toNat_add] at h ⊢
  omega

namespace LatencyBuckets

/-- All counted durations. -/
def total (b : LatencyBuckets) : UInt64 :=
  b.underMilli + b.underTenMillis + b.underHundredMillis + b.underSecond + b.overSecond

/-- The cumulated buckets as sums that cannot wrap. -/
def partialSums (b : LatencyBuckets) : List Nat :=
  [b.underMilli.toNat,
   b.underMilli.toNat + b.underTenMillis.toNat,
   b.underMilli.toNat + b.underTenMillis.toNat + b.underHundredMillis.toNat,
   b.underMilli.toNat + b.underTenMillis.toNat + b.underHundredMillis.toNat + b.underSecond.toNat]

/-- **The ranges of the buckets are a partition**: each duration counts in one of them. -/
theorem total_count (b : LatencyBuckets) (micros : UInt64) : (b.count micros).total = b.total + 1 := by
  unfold count total
  split_ifs <;> dsimp only <;> ac_rfl

/-- **Cumulated buckets that do not shrink have not wrapped.** -/
theorem map_toNat_cumulative {b : LatencyBuckets} (h : b.cumulative.Pairwise fun x y => x.2 ≤ y.2) :
    b.cumulative.map (fun entry => entry.2.toNat) = b.partialSums := by
  unfold cumulative at h
  simp only [List.pairwise_cons, List.forall_mem_cons] at h
  obtain ⟨⟨hten, -⟩, ⟨hhundred, -⟩, ⟨hsecond, -⟩, -⟩ := h
  have hten := toNat_add_of_le hten
  have hhundred := toNat_add_of_le hhundred
  have hsecond := toNat_add_of_le hsecond
  simp only [cumulative, partialSums, List.map_cons, List.map_nil, hsecond, hhundred, hten]

/-- **Short of the wrap the cumulated buckets do not shrink, and none is above the count of all.** -/
theorem Cumulate.pairwise_le {b : LatencyBuckets} {durations : List UInt64} (h : b.Cumulate durations)
    (hlt : durations.length < 2 ^ 64) :
    (b.cumulative.Pairwise fun x y => x.2 ≤ y.2) ∧
      ∀ entry ∈ b.cumulative, entry.2 ≤ UInt64.ofNat durations.length := by
  have hword {m n : Nat} (hmn : m ≤ n) (hn : n < 2 ^ 64) : UInt64.ofNat m ≤ UInt64.ofNat n := by
    rw [UInt64.le_iff_toNat_le, UInt64.toNat_ofNat_of_lt' hn, UInt64.toNat_ofNat_of_lt' (Nat.lt_of_le_of_lt hmn hn)]
    exact hmn
  have hsmall (bound : Nat) := List.countP_le_length (p := fun micros : UInt64 => decide (micros.toNat < bound))
    (l := durations)
  unfold Cumulate at h
  rw [h, List.pairwise_map, List.forall_mem_map]
  constructor
  · have hbounds : bounds.Pairwise fun x y => x.2 ≤ y.2 := by decide
    refine hbounds.imp fun {x y} hxy => hword (List.countP_mono_left fun micros _ hx => ?_)
      (Nat.lt_of_le_of_lt (hsmall y.2) hlt)
    exact decide_eq_true (Nat.lt_of_lt_of_le (of_decide_eq_true hx) hxy)
  · exact fun bound _ => hword (hsmall bound.2) hlt

end LatencyBuckets

namespace Tally

/-- The counters of a tally that was told these durations, each of them once for a request. -/
structure Balanced (t : Tally) (durations : List UInt64) : Prop where
  count_eq : t.latencyCount = UInt64.ofNat durations.length
  total_eq : t.total = t.latencyCount
  outcomes_eq : t.computed + t.failed + t.rateLimited + t.errors = t.latencyCount
  buckets_eq : t.latency.total = t.latencyCount
  sum_eq : t.latencySumMicros = UInt64.ofNat (durations.map UInt64.toNat).sum

theorem balanced_fresh : Balanced fresh [] :=
  ⟨rfl, rfl, rfl, rfl, rfl⟩

theorem outcomes_record (t : Tally) (outcome : Outcome) (micros : UInt64) :
    let next := t.record outcome micros
    next.computed + next.failed + next.rateLimited + next.errors =
      t.computed + t.failed + t.rateLimited + t.errors + 1 := by
  cases outcome <;> simp only [record, countOutcome, countLatency] <;> ac_rfl

theorem latencySumMicros_record (t : Tally) (outcome : Outcome) (micros : UInt64) :
    (t.record outcome micros).latencySumMicros = t.latencySumMicros + micros := by
  cases outcome <;> rfl

/-- **A recorded request keeps the balance.** -/
theorem Balanced.record {t : Tally} {durations : List UInt64} (h : t.Balanced durations) (outcome : Outcome)
    (micros : UInt64) : (t.record outcome micros).Balanced (durations ++ [micros]) := by
  obtain ⟨htotal, hcount⟩ := t.record_total outcome micros
  refine ⟨?_, ?_, ?_, ?_, ?_⟩
  · rw [hcount, h.count_eq, List.length_append, UInt64.ofNat_add]
    rfl
  · rw [htotal, hcount, h.total_eq]
  · rw [hcount, ← h.outcomes_eq]
    exact t.outcomes_record outcome micros
  · rw [hcount, ← h.buckets_eq, latency_record]
    exact t.latency.total_count micros
  · rw [latencySumMicros_record, h.sum_eq, List.map_append, List.sum_append, UInt64.ofNat_add, List.map_singleton,
      List.sum_singleton, UInt64.ofNat_toNat]

theorem balanced_after (notes : List Note) : (after notes).Balanced (Note.durations notes) := by
  induction notes using List.reverseRecOn with
  | nil => exact balanced_fresh
  | append_singleton past x ih =>
    rw [after_concat]
    cases x with
    | ended outcome micros =>
      rw [Note.durations_concat_ended]
      exact ih.record outcome micros
    | tracked clients =>
      rw [Note.durations_concat_tracked]
      exact ⟨ih.count_eq, ih.total_eq, ih.outcomes_eq, ih.buckets_eq, ih.sum_eq⟩

end Tally

open Exposition (Shows bucketSeries)

/-- **The counters of a tally balance.**  After any calls, up to the wrap of 64 bits, the total is the sum of the four
outcomes, the sum of the five buckets and the number of requests recorded, which is also the count; and the sum of the
durations is that of all of them.  With fewer than `2^64` requests the exported buckets are sums that have not wrapped,
none is below the one of a smaller bound, and none is above the bucket without a bound, which shows the count. -/
theorem counters_balance (notes : List Note) (uptime : Nat) :
    let t := Tally.after notes
    let durations := Note.durations notes
    let text := Exposition.text t uptime
    (t.total = t.computed + t.failed + t.rateLimited + t.errors ∧ t.total = t.latencyCount ∧
        t.total = t.latency.total ∧ t.total = UInt64.ofNat durations.length ∧
        t.latencySumMicros = UInt64.ofNat (durations.map UInt64.toNat).sum) ∧
      (durations.length < 2 ^ 64 →
        t.latency.cumulative.map Prod.fst = ["0.001", "0.01", "0.1", "1"] ∧
        t.latency.cumulative.map (fun entry => entry.2.toNat) = t.latency.partialSums ∧
        (t.latency.cumulative.Pairwise fun x y => x.2 ≤ y.2) ∧
        (∀ entry ∈ t.latency.cumulative,
          Shows text (bucketSeries entry.1) entry.2.toNat ∧ entry.2 ≤ t.latencyCount) ∧
        Shows text (bucketSeries "+Inf") t.latencyCount.toNat) := by
  intro t durations text
  have hbalanced : t.Balanced durations := Tally.balanced_after notes
  have htotal : ∀ {n : UInt64}, n = t.latencyCount → t.total = n := fun h => hbalanced.total_eq.trans h.symm
  refine ⟨⟨htotal hbalanced.outcomes_eq, hbalanced.total_eq, htotal hbalanced.buckets_eq,
    htotal hbalanced.count_eq.symm, hbalanced.sum_eq⟩, fun hlt => ?_⟩
  obtain ⟨hpairwise, hle⟩ := (Tally.cumulate_after notes).pairwise_le hlt
  refine ⟨rfl, LatencyBuckets.map_toNat_cumulative hpairwise, hpairwise, fun entry hentry => ?_,
    Exposition.shows_all t uptime _ List.mem_cons_self⟩
  refine ⟨Exposition.shows_bucket t uptime entry hentry, ?_⟩
  rw [hbalanced.count_eq]
  exact hle entry hentry

/-- Four requests on both sides of two bounds, the last as long as a word can say: the sum of the durations wraps to
1998, and the buckets are 1, 2, 2 and 2 out of 4. -/
theorem counters_balance_wrapped :
    let notes := [.ended .computed 999, .tracked 1, .ended .error 1000, .ended .failed 1000000,
      .ended .rateLimited 18446744073708551615]
    let t := Tally.after notes
    let text := Exposition.text t 5
    (Note.durations notes).length < 2 ^ 64 ∧ t.total = 4 ∧ t.total = t.computed + t.failed + t.rateLimited + t.errors ∧
      t.latencySumMicros = UInt64.ofNat ((Note.durations notes).map UInt64.toNat).sum ∧ t.latencySumMicros = 1998 ∧
      [1, 2, 2, 2] = t.latency.partialSums ∧ Shows text (bucketSeries "+Inf") 4 := by
  intro notes t text
  have hlt : (Note.durations notes).length < 2 ^ 64 := by decide
  obtain ⟨⟨houtcomes, -, -, hlength, hsum⟩, hshort⟩ := counters_balance notes 5
  obtain ⟨-, hsums, -, -, hall⟩ := hshort hlt
  exact ⟨hlt, hlength, houtcomes, hsum, by decide, hsums, hall⟩

end InterestDesk
