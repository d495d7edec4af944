import LaunchDesk.CommandLine

/-!
# The program

Reads the files and the environment, prints the log, and ends as the command line says.
-/

open LaunchDesk

namespace LaunchDesk.Program

/-- The variable that a text of the environment sets. -/
def assignment? (s : String) : Option (String × String) :=
  match s.splitOn "=" with
  | name :: value :: rest => some (name, "=".intercalate (value :: rest))
  | _ => none

def environmentOf (text : String) : Environment :=
  (text.splitOn "\x00").filterMap assignment?

/-- The text of a file, if it can be read. -/
def readFile? (path : String) : IO (Option String) := do
  try
    return some (← IO.FS.readFile path)
  catch _ =>
    return none

/-- The environment of the program; empty where it cannot be read. -/
def environment : IO Environment := do
  return environmentOf ((← readFile? "/proc/self/environ").getD "")

/-- The files that the arguments may refer to. -/
def filesFor (arguments : List String) : IO (String → Option String) := do
  let path := match CommandLine.read {} arguments with
    | .ok a => a.config.getD CommandLine.usualPath
    | .error _ => CommandLine.usualPath
  let settings ← readFile? path
  let extra ← readFile? ".env"
  return fun p => if p = path then settings else if p = ".env" then extra else none

def lineText (line : Log.Line) : String :=
  line.level.text ++ " " ++ CommandLine.target ++ ": " ++ line.text

end LaunchDesk.Program

open LaunchDesk.Program in
def main (arguments : List String) : IO UInt32 := do
  let outcome := CommandLine.run arguments (← filesFor arguments) (← environment)
  for line in outcome.lines do
    IO.println (lineText line)
  if let some fault := outcome.fault then
    IO.eprintln ("Error: " ++ fault.toFault.message)
  if outcome.waits then
    repeat IO.sleep 1000
  return UInt32.ofNat outcome.exit
