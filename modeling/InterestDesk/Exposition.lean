import InterestDesk.Tally
/-!
# Exposition — a tally as text for a metrics scraper

Every metric has a help line and a type line before its samples.
-/
namespace InterestDesk
namespace Exposition

def namespaceName : String :=
  "interest_calc_"

def heading (name help kind : String) : List String :=
  ["# HELP " ++ namespaceName ++ name ++ " " ++ help,
   "# TYPE " ++ namespaceName ++ name ++ " " ++ kind]

def sample (name : String) (value : String) : String :=
  namespaceName ++ name ++ " " ++ value

/-- A counter with its comments and the empty line after it. -/
def counter (name help : String) (value : UInt64) : List String :=
  heading name help "counter" ++ [sample name (toString value.toNat), ""]

def bucket (bound : String) (count : UInt64) : String :=
  sample ("request_duration_bucket\x7ble=\"" ++ bound ++ "\"\x7d") (toString count.toNat)

def durations (t : Tally) : List String :=
  heading "request_duration" "Request latency distribution" "histogram"
    ++ t.latency.cumulative.map (fun (bound, count) => bucket bound count)
    ++ [bucket "+Inf" t.latencyCount,
        sample "request_duration_sum" t.latencySumSeconds,
        sample "request_duration_count" (toString t.latencyCount.toNat),
        ""]

/-- All lines, for a server that has run for `uptime` seconds. -/
def lines (t : Tally) (uptime : Nat) : List String :=
  heading "uptime_seconds" "Time since server start in seconds" "gauge"
    ++ [sample "uptime_seconds" (toString uptime), ""]
    ++ counter "requests_total" "Total number of calculation requests" t.total
    ++ counter "requests_computed" "Requests answered with a result" t.computed
    ++ counter "requests_failed" "Requests rejected by validation or calculation" t.failed
    ++ counter "requests_rate_limited" "Requests turned away by the rate limiter" t.rateLimited
    ++ counter "requests_errors" "Total internal errors" t.errors
    ++ durations t
    ++ heading "active_clients" "Clients tracked by the rate limiter" "gauge"
    ++ [sample "active_clients" (toString t.activeClients)]

/-- The whole text; every line ends with a line feed. -/
def text (t : Tally) (uptime : Nat) : String :=
  String.join ((lines t uptime).map (· ++ "\n"))

end Exposition
end InterestDesk
