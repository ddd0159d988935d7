/-!
# Variables — the list of environment variables
-/
namespace InterestDesk
namespace Settings

/-- The lines that describe the environment variables. -/
def variableLines : List String :=
  ["interest-calc Environment Variables",
   "===================================",
   "",
   "All environment variables use the INTEREST_CALC_ prefix.",
   "CLI arguments take precedence over environment variables.",
   "",
   "HTTP Configuration:",
   "  INTEREST_CALC_HOST=<host>                HTTP host [default: 127.0.0.1]",
   "  INTEREST_CALC_PORT=<port>                HTTP port [default: $PORT, then 5000]",
   "",
   "Rate Limiting:",
   "  INTEREST_CALC_RATE_LIMIT=<n>             Requests per client per window [default: 30]",
   "  INTEREST_CALC_RATE_WINDOW=<secs>         Window length in seconds [default: 60]",
   "  INTEREST_CALC_CLEANUP_INTERVAL=<secs>    Idle client sweep interval [default: 60]",
   "  INTEREST_CALC_STORE_CAPACITY=<size>      Expected distinct clients [default: 1000]",
   "",
   "General Configuration:",
   "  INTEREST_CALC_BUFFER_SIZE=<size>         Channel buffer size [default: 10000]",
   "  INTEREST_CALC_LOG_LEVEL=<level>          Log level: error, warn, info, debug, trace [default: info]",
   "",
   "Examples:",
   "  # Allow 10 calculations per client per minute",
   "  export INTEREST_CALC_RATE_LIMIT=10",
   "",
   "  # Run server (CLI args override env vars)",
   "  interest-calc --port 9090"]

end Settings
end InterestDesk
