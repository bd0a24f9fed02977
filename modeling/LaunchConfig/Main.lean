import LaunchConfig.Launcher.Launch

/-!
# The command line program

The outer layer: it fetches the arguments, the working directory and the
environment, and writes what `launch` leaves behind.
-/

namespace LaunchConfig.Main

/-- The variables that the launcher looks at. -/
def fetchEnvironment : IO Environment := do
  let override ← IO.getEnv Environment.userHomeVariable
  let home ← IO.getEnv "HOME"
  return fun name =>
    if name = Environment.userHomeVariable then override.map .ofString
    else if name = "HOME" then home.map .ofString
    else none

/-- The path of the working directory, or what is said where it has none. -/
def fetchDirectory : IO WorkingDirectory :=
  try
    return .known (.ofString (← IO.currentDir).toString)
  catch e =>
    return .unknown (toString e)

/-- Write what a run leaves behind. -/
def report (l : Launch) : IO UInt32 := do
  for r in l.records do
    IO.eprintln r.line
  if let some e := l.error? then
    IO.eprintln e
  IO.print l.stdout
  return UInt32.ofNat l.exitCode

end LaunchConfig.Main

open LaunchConfig in
/-- Run the launcher on what it is given (`main`). -/
def main (args : List String) : IO UInt32 := do
  let dir ← Main.fetchDirectory
  let env ← Main.fetchEnvironment
  Main.report (launch (args.map .ofString) dir env)
