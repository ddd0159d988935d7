import InterestDesk.Admission.Limiter
import InterestDesk.Settings.CommandLine
import InterestDesk.Text.Blank
import InterestDesk.Text.Quoted
/-!
# Config — the settings a server runs with

Options and their variables come first, for the port then the platform's variable, and defaults last.  The limit, the
window, the sweep interval and the buffer size must not be zero.
-/
namespace InterestDesk
namespace Settings

/-- The port of a server that is given none. -/
def defaultPort : Nat := 5000

structure Config where
  host : String
  port : Nat
  limit : Nat
  windowSeconds : Nat
  cleanupSeconds : Nat
  capacity : Nat
  bufferSize : Nat
  logLevel : String

inductive ConfigError where
  /-- the platform's port is no port -/
  | invalidPort (raw : String) (cause : WholeError)
  | zeroLimit
  | zeroWindow
  | zeroCleanup
  | zeroBuffer
  deriving DecidableEq

def ConfigError.message : ConfigError → String
  | invalidPort raw cause => "Invalid PORT value " ++ Text.quoted raw ++ ": " ++ cause.message
  | zeroLimit => "--rate-limit must be at least 1 (a limit of 0 would reject every request)"
  | zeroWindow => "--rate-window must be at least 1 second"
  | zeroCleanup => "--cleanup-interval must be at least 1 second"
  | zeroBuffer => "--buffer-size must be at least 1"

namespace Config

/-- The port of the platform, with white space around it let pass. -/
def platformPort (raw : String) : Except ConfigError Nat :=
  match readWhole portLimit (Text.trim raw.toList) with
  | .ok port => .ok port
  | .error cause => .error (.invalidPort raw cause)

/-- The port given by an option, by the platform or by default. -/
def choosePort (given : Option Nat) (platform : Option String) : Except ConfigError Nat :=
  match given, platform with
  | some port, _ => .ok port
  | none, some raw => platformPort raw
  | none, none => .ok defaultPort

/-- Refuses the first zero that makes a server useless. -/
def validate (c : Config) : Except ConfigError Config :=
  if c.limit = 0 then .error .zeroLimit
  else if c.windowSeconds = 0 then .error .zeroWindow
  else if c.cleanupSeconds = 0 then .error .zeroCleanup
  else if c.bufferSize = 0 then .error .zeroBuffer
  else .ok c

/-- The settings of arguments and of the platform's port. -/
def ofArguments (a : Arguments) (platform : Option String) : Except ConfigError Config := do
  let port ← choosePort (a.whole? .port) platform
  validate {
    host := a.textOr .host "127.0.0.1"
    port
    limit := (a.whole? .rateLimit).getD 30
    windowSeconds := (a.whole? .rateWindow).getD 60
    cleanupSeconds := (a.whole? .cleanupInterval).getD 60
    capacity := (a.whole? .storeCapacity).getD 1000
    bufferSize := (a.whole? .bufferSize).getD 10000
    logLevel := a.textOr .logLevel "info" }

/-- What the limiter of these settings is built from. -/
def limiterPlan (c : Config) : LimiterPlan :=
  ⟨⟨c.limit, Clock.seconds c.windowSeconds⟩, c.capacity, Clock.seconds c.cleanupSeconds⟩

end Config
end Settings
end InterestDesk
