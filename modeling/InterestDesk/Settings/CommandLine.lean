import InterestDesk.Settings.Whole
/-!
# CommandLine — options, their environment variables and what they hold

Arguments are read from left to right.  The value of an option is checked when the next known option is met or the
arguments end, and an argument the program does not know is reported before a value that waits for its check.  An
environment variable is read only for an option that is not on the command line.
-/
namespace InterestDesk
namespace Settings

/-- The options that take a value, in the order of their environment variables. -/
inductive ValueOption where
  | host | port | rateLimit | rateWindow | cleanupInterval | storeCapacity | bufferSize | logLevel
  deriving DecidableEq

namespace ValueOption

def all : List ValueOption :=
  [host, port, rateLimit, rateWindow, cleanupInterval, storeCapacity, bufferSize, logLevel]

def name : ValueOption → String
  | host => "host"
  | port => "port"
  | rateLimit => "rate-limit"
  | rateWindow => "rate-window"
  | cleanupInterval => "cleanup-interval"
  | storeCapacity => "store-capacity"
  | bufferSize => "buffer-size"
  | logLevel => "log-level"

/-- What stands for the value where the option is described. -/
def valueName : ValueOption → String
  | host => "HOST"
  | port => "PORT"
  | rateLimit => "N"
  | rateWindow => "SECS"
  | cleanupInterval => "SECS"
  | storeCapacity => "SIZE"
  | bufferSize => "SIZE"
  | logLevel => "LEVEL"

def envName : ValueOption → String
  | host => "INTEREST_CALC_HOST"
  | port => "INTEREST_CALC_PORT"
  | rateLimit => "INTEREST_CALC_RATE_LIMIT"
  | rateWindow => "INTEREST_CALC_RATE_WINDOW"
  | cleanupInterval => "INTEREST_CALC_CLEANUP_INTERVAL"
  | storeCapacity => "INTEREST_CALC_STORE_CAPACITY"
  | bufferSize => "INTEREST_CALC_BUFFER_SIZE"
  | logLevel => "INTEREST_CALC_LOG_LEVEL"

def usage (o : ValueOption) : String :=
  "--" ++ o.name ++ " <" ++ o.valueName ++ ">"

end ValueOption

def listFlag : String :=
  "list-env-vars"

def helpFlag : String :=
  "help"

inductive OptionValue where
  | text (value : String)
  | whole (value : Nat)

/-- Reads a port; a minus is let pass before a zero. -/
def readPort? : List Char → Option Nat
  | '-' :: digits => (readDigits 1 digits).toOption
  | text => (readWhole portLimit text).toOption

def ValueOption.read? (o : ValueOption) (text : String) : Option OptionValue :=
  match o with
  | host | logLevel => some (.text text)
  | port => (readPort? text.toList).map .whole
  | _ => (readWhole wordLimit text.toList).toOption.map .whole

inductive UsageError where
  | unknownArgument (argument : String)
  | invalidValue (option : ValueOption)
  | missingValue (option : ValueOption)
  /-- an option, shown as in error texts, given twice -/
  | repeated (shown : String)
  /-- a flag, shown with its dashes, given a value -/
  | unexpectedValue (shown : String)
  /-- no fault, but a call for help -/
  | help

def UsageError.message : UsageError → String
  | unknownArgument argument => "unexpected argument '" ++ argument ++ "' found"
  | invalidValue o => "invalid value for '" ++ o.usage ++ "'"
  | missingValue o => "a value is required for '" ++ o.usage ++ "' but none was supplied"
  | repeated shown => "the argument '" ++ shown ++ "' cannot be used multiple times"
  | unexpectedValue shown => "unexpected value for '" ++ shown ++ "' found"
  | help => "an HTTP service for simple and compound interest"

structure Arguments where
  values : List (ValueOption × OptionValue)
  listVariables : Bool

namespace Arguments

def empty : Arguments :=
  ⟨[], false⟩

def value? (a : Arguments) (o : ValueOption) : Option OptionValue :=
  a.values.lookup o

def textOr (a : Arguments) (o : ValueOption) (default : String) : String :=
  match a.value? o with
  | some (.text value) => value
  | _ => default

def whole? (a : Arguments) (o : ValueOption) : Option Nat :=
  match a.value? o with
  | some (.whole value) => some value
  | _ => none

/-- Checks a value and keeps it; an option may be given once. -/
def give (a : Arguments) (o : ValueOption) (text : String) : Except UsageError Arguments :=
  if (a.value? o).isSome then .error (.repeated o.usage)
  else match o.read? text with
    | some value => .ok { a with values := (o, value) :: a.values }
    | none => .error (.invalidValue o)

end Arguments

/-- An option whose check is still to come, with its value if it has one. -/
structure Pending where
  option : ValueOption
  value : Option String

/-- A reading of the arguments so far; `wantsValue` holds right behind an option without its value. -/
structure Reading where
  arguments : Arguments
  pending : Option Pending
  wantsValue : Bool

namespace Reading

def start : Reading :=
  ⟨Arguments.empty, none, false⟩

def settle (r : Reading) : Except UsageError Arguments :=
  match r.pending with
  | none => .ok r.arguments
  | some ⟨o, none⟩ => .error (.missingValue o)
  | some ⟨o, some text⟩ => r.arguments.give o text

/-- Reads an option of the program, with the value behind its equals sign if there is one. -/
def takeOption (r : Reading) (o : ValueOption) (attached : Option String) : Except UsageError Reading := do
  let arguments ← r.settle
  match attached with
  | some text => return ⟨← arguments.give o text, none, false⟩
  | none => return ⟨arguments, some ⟨o, none⟩, true⟩

def takeListFlag (r : Reading) : Except UsageError Reading := do
  let arguments ← r.settle
  if arguments.listVariables then throw (.repeated ("--" ++ listFlag))
  return ⟨{ arguments with listVariables := true }, none, false⟩

/-- Answers a call for help, unless the pending option is at fault. -/
def takeHelp (r : Reading) : Except UsageError Reading := do
  let _ ← r.settle
  throw .help

/-- Reads an argument that starts with two dashes, split at its first equals sign. -/
def takeLong (r : Reading) (name : String) (attached : Option String) : Except UsageError Reading :=
  match ValueOption.all.find? (·.name == name) with
  | some o => r.takeOption o attached
  | none =>
    if name == listFlag || name == helpFlag then
      if attached.isSome then .error (.unexpectedValue ("--" ++ name))
      else if name == listFlag then r.takeListFlag
      else r.takeHelp
    else .error (.unknownArgument ("--" ++ name))

/-- Reads an argument that is no option: the value that is wanted, or a fault. -/
def takeOther (r : Reading) (argument : String) : Except UsageError Reading :=
  match r.wantsValue, r.pending with
  | true, some p => .ok { r with pending := some { p with value := some argument }, wantsValue := false }
  | _, _ => .error (.unknownArgument argument)

def take (r : Reading) (argument : String) : Except UsageError Reading :=
  match argument.toList with
  | '-' :: '-' :: rest =>
    let name := String.ofList (rest.takeWhile (· != '='))
    match rest.dropWhile (· != '=') with
    | _ :: value => r.takeLong name (some (String.ofList value))
    | [] => r.takeLong name none
  | '-' :: letter :: _ =>
    if letter = 'h' then r.takeHelp else .error (.unknownArgument (String.ofList ['-', letter]))
  | _ => r.takeOther argument

/-- Reads all arguments.  Behind two dashes no argument is known. -/
def takeAll (r : Reading) : List String → Except UsageError Arguments
  | [] => r.settle
  | argument :: rest =>
    if argument = "--" then
      match rest with
      | [] => r.settle
      | extra :: _ => .error (.unknownArgument extra)
    else r.take argument >>= (takeAll · rest)

end Reading

/-- Gives an option the value of its variable, if it has none and the variable is set. -/
def addVariable (env : String → Option String) (a : Arguments) (o : ValueOption) : Except UsageError Arguments :=
  match a.value? o, env o.envName with
  | none, some text => a.give o text
  | _, _ => .ok a

/-- Reads the arguments, then the variables of the options that are not among them. -/
def readCommandLine (arguments : List String) (env : String → Option String) : Except UsageError Arguments := do
  ValueOption.all.foldlM (addVariable env) (← Reading.start.takeAll arguments)

end Settings
end InterestDesk
