/-!
# Clock — instants and lengths of time in nanoseconds

An instant is an `Int` of nanoseconds since the epoch and a length of time a `Nat` of nanoseconds.  The clock counts
whole seconds up to `2^63 - 1`, so a sum may have no instant.
-/
namespace InterestDesk
namespace Clock

def nanosPerSecond : Nat := 1000000000

/-- The last second of the clock, `2^63 - 1`. -/
def lastSecond : Int := 9223372036854775807

def lastInstant : Int :=
  lastSecond * nanosPerSecond + 999999999

/-- The instant `length` after `t`, if the clock can show it. -/
def after? (t : Int) (length : Nat) : Option Int :=
  if t + length ≤ lastInstant then some (t + length) else none

def seconds (n : Nat) : Nat :=
  n * nanosPerSecond

/-- A length of time in seconds, rounded up. -/
def secondsUp (length : Nat) : Nat :=
  length / nanosPerSecond + if length % nanosPerSecond = 0 then 0 else 1

end Clock
end InterestDesk
