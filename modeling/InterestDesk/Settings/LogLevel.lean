import InterestDesk.Settings.Whole
import InterestDesk.Text.Blank
/-!
# LogLevel — which log levels there are

A level is one of six words in any case, or their number.  A comma may end the level, and nothing but white space may
follow it.
-/
namespace InterestDesk
namespace Settings

inductive LogLevelError where
  /-- there is no such level -/
  | unknownLevel
  /-- something stands behind the comma -/
  | trailingText
  deriving DecidableEq

namespace LogLevelError

def message : LogLevelError → String
  | unknownLevel =>
    "error parsing level filter: " ++
      "expected one of \"off\", \"error\", \"warn\", \"info\", \"debug\", \"trace\", or a number 0-5"
  | trailingText => "invalid filter directive"

/-- The text of the error behind this one, if there is one. -/
def cause? : LogLevelError → Option String
  | unknownLevel => some unknownLevel.message
  | trailingText => none

end LogLevelError

/-- The levels in words, by their numbers. -/
def levelWords : List String :=
  ["off", "error", "warn", "info", "debug", "trace"]

/-- Whether a text names a level; the empty text names the most detailed one. -/
def isLevel (text : List Char) : Bool :=
  text.isEmpty || (readWhole levelWords.length text).toOption.isSome
    || levelWords.any (·.toList == text.map Char.toLower)

def checkLogLevel (text : String) : Except LogLevelError Unit :=
  let level := text.toList.takeWhile (· != ',')
  if !isLevel level then .error .unknownLevel
  else if (text.toList.dropWhile (· != ',')).drop 1 |>.all Text.isBlank then .ok ()
  else .error .trailingText

end Settings
end InterestDesk
