/-!
# Logs

A line of the log has a level, a message and fields with their values as text.
-/

namespace LaunchDesk.Log

inductive Level
  | trace
  | debug
  | info
  | warn
  | error
deriving DecidableEq, Repr

namespace Level

def text : Level → String
  | .trace => "TRACE"
  | .debug => "DEBUG"
  | .info => "INFO"
  | .warn => "WARN"
  | .error => "ERROR"

/-- How much a level lets through: 0 for errors only, 4 for everything. -/
def verbosity : Level → Nat
  | .error => 0
  | .warn => 1
  | .info => 2
  | .debug => 3
  | .trace => 4

end Level

structure Line where
  level : Level
  message : String
  fields : List (String × String) := []
deriving DecidableEq, Repr

namespace Line

def trace (message : String) (fields : List (String × String) := []) : Line :=
  ⟨.trace, message, fields⟩

def debug (message : String) (fields : List (String × String) := []) : Line :=
  ⟨.debug, message, fields⟩

def info (message : String) (fields : List (String × String) := []) : Line :=
  ⟨.info, message, fields⟩

def warn (message : String) (fields : List (String × String) := []) : Line :=
  ⟨.warn, message, fields⟩

def error (message : String) (fields : List (String × String) := []) : Line :=
  ⟨.error, message, fields⟩

/-- The message, and each field behind it. -/
def text (l : Line) : String :=
  l.fields.foldl (fun s (key, value) => s ++ " " ++ key ++ "=" ++ value) l.message

end Line

/-- How a value that may be missing is shown. -/
def optional {α : Type} (shown : α → String) : Option α → String
  | none => "None"
  | some a => "Some(" ++ shown a ++ ")"

end LaunchDesk.Log
