import InterestDesk.Settings.Startup
/-!
# Main — the command line of the program

The arguments and the variables of the environment decide how the program starts.  A start that ends at once writes
its text and ends with its exit code.  A start that is ready names the address it is set up for.
-/
open InterestDesk.Settings in
/-- The variables that a start looks at. -/
def InterestDesk.Settings.readEnvironment : IO (List (String × String)) :=
  ("PORT" :: ValueOption.all.map ValueOption.envName).filterMapM fun name =>
    return (← IO.getEnv name).map fun value => (name, value)

open InterestDesk.Settings in
def main (arguments : List String) : IO UInt32 := do
  let environment ← readEnvironment
  let startup := Startup.of arguments fun name => environment.lookup name
  IO.print startup.output
  IO.eprint startup.errorText
  match startup with
  | .ready config =>
    IO.println ("Ready to serve on " ++ config.host ++ ":" ++ toString config.port)
    return 0
  | _ => return ((startup.exitCode?).getD 0).toUInt32
