import InterestDesk.Binary64.Arithmetic
import InterestDesk.Decimal.Fixed
/-!
# Tally — request counts and latencies

Counters are 64-bit words and wrap.  Each request counts once in the total, once under its outcome and once in the
latency bucket of its duration, so the three sums agree.
-/
namespace InterestDesk

inductive Outcome where
  | computed
  /-- with a fault in the form or in the calculation -/
  | failed
  | rateLimited
  /-- without an answer of the calculator -/
  | error
  deriving DecidableEq

/-- Counts by duration; each bucket starts where the one before it ends. -/
structure LatencyBuckets where
  underMilli : UInt64
  underTenMillis : UInt64
  underHundredMillis : UInt64
  underSecond : UInt64
  overSecond : UInt64
  deriving DecidableEq

namespace LatencyBuckets

def count (b : LatencyBuckets) (micros : UInt64) : LatencyBuckets :=
  if micros < 1000 then { b with underMilli := b.underMilli + 1 }
  else if micros < 10000 then { b with underTenMillis := b.underTenMillis + 1 }
  else if micros < 100000 then { b with underHundredMillis := b.underHundredMillis + 1 }
  else if micros < 1000000 then { b with underSecond := b.underSecond + 1 }
  else { b with overSecond := b.overSecond + 1 }

/-- The bounded buckets with their bounds in seconds, each holding those before it. -/
def cumulative (b : LatencyBuckets) : List (String × UInt64) :=
  [("0.001", b.underMilli),
   ("0.01", b.underMilli + b.underTenMillis),
   ("0.1", b.underMilli + b.underTenMillis + b.underHundredMillis),
   ("1", b.underMilli + b.underTenMillis + b.underHundredMillis + b.underSecond)]

end LatencyBuckets

structure Tally where
  total : UInt64
  computed : UInt64
  failed : UInt64
  rateLimited : UInt64
  errors : UInt64
  latency : LatencyBuckets
  latencySumMicros : UInt64
  latencyCount : UInt64
  /-- clients tracked by the limiter after the latest request -/
  activeClients : Nat
  deriving DecidableEq

namespace Tally

def fresh : Tally :=
  ⟨0, 0, 0, 0, 0, ⟨0, 0, 0, 0, 0⟩, 0, 0, 0⟩

def countOutcome (t : Tally) : Outcome → Tally
  | .computed => { t with total := t.total + 1, computed := t.computed + 1 }
  | .failed => { t with total := t.total + 1, failed := t.failed + 1 }
  | .rateLimited => { t with total := t.total + 1, rateLimited := t.rateLimited + 1 }
  | .error => { t with total := t.total + 1, errors := t.errors + 1 }

def countLatency (t : Tally) (micros : UInt64) : Tally :=
  { t with
    latency := t.latency.count micros
    latencySumMicros := t.latencySumMicros + micros
    latencyCount := t.latencyCount + 1 }

/-- Counts a request that ended with `outcome` after `micros` microseconds. -/
def record (t : Tally) (outcome : Outcome) (micros : UInt64) : Tally :=
  (t.countOutcome outcome).countLatency micros

theorem record_total (t : Tally) (outcome : Outcome) (micros : UInt64) :
    (t.record outcome micros).total = t.total + 1 ∧ (t.record outcome micros).latencyCount = t.latencyCount + 1 := by
  cases outcome <;> exact ⟨rfl, rfl⟩

def noteActiveClients (t : Tally) (count : Nat) : Tally :=
  { t with activeClients := count }

/-- The sum of the durations in seconds, with six decimal places. -/
def latencySumSeconds (t : Tally) : String :=
  Decimal.formatUnsigned (Binary64.ofNat t.latencySumMicros.toNat / 1000000) 6

end Tally
end InterestDesk
