import InterestDesk.Settings.Config
import InterestDesk.Settings.LogLevel
import InterestDesk.Settings.Variables
/-!
# Startup — how a start of the program goes

A faulty command line ends it first, then the list of variables is given if it was asked for, then the settings are
checked and at last the log level.
-/
namespace InterestDesk
namespace Settings

inductive Startup where
  /-- the command line is refused, or help is asked for -/
  | usage (error : UsageError)
  | listing
  | refused (message : String) (cause : Option String)
  | ready (config : Config)

namespace Startup

def of (arguments : List String) (env : String → Option String) : Startup :=
  match readCommandLine arguments env with
  | .error e => usage e
  | .ok a =>
    if a.listVariables then listing
    else match Config.ofArguments a (env "PORT") with
      | .error e => refused e.message none
      | .ok config =>
        match checkLogLevel config.logLevel with
        | .error e => refused e.message e.cause?
        | .ok () => ready config

/-- The exit code of a start that ends at once; a ready server has none. -/
def exitCode? : Startup → Option UInt8
  | usage .help => some 0
  | usage _ => some 2
  | listing => some 0
  | refused _ _ => some 1
  | ready _ => none

/-- A start does not end at once exactly when the server can run. -/
theorem exitCode?_eq_none_iff (s : Startup) : s.exitCode? = none ↔ ∃ config, s = ready config := by
  cases s with
  | usage e => cases e <;> simp [exitCode?]
  | listing => simp [exitCode?]
  | refused message cause => simp [exitCode?]
  | ready config => simp [exitCode?]

/-- The options of the program, one a line. -/
def optionLines : List String :=
  ValueOption.all.map ("  " ++ ·.usage) ++ ["  --" ++ listFlag, "  --" ++ helpFlag]

def output : Startup → String
  | listing => String.join (variableLines.map (· ++ "\n"))
  | usage .help => String.join ((UsageError.help.message :: "Options:" :: optionLines).map (· ++ "\n"))
  | _ => ""

/-- What a start that is refused writes as its error. -/
def errorText : Startup → String
  | usage .help => ""
  | usage e => "error: " ++ e.message ++ "\n"
  | refused message none => "Error: " ++ message ++ "\n"
  | refused message (some cause) => "Error: " ++ message ++ "\n\nCaused by:\n    " ++ cause ++ "\n"
  | _ => ""

end Startup
end Settings
end InterestDesk
