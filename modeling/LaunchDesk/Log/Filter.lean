import LaunchDesk.Log
import LaunchDesk.Text

/-!
# Log filters

A filter is a list of directives with commas between them: a level, a target, or a target with a
level. A directive for a target is also one for all targets that begin with it. The directive with
the longest target decides; without any directive only errors pass.
-/

namespace LaunchDesk.Log

namespace Level

/-- The level with a name in either case. -/
def ofName? (s : String) : Option Level :=
  match Text.lower s with
  | "trace" => some .trace
  | "debug" => some .debug
  | "info" => some .info
  | "warn" => some .warn
  | "error" => some .error
  | _ => none

end Level

/-- The most that passes: a level with all above it, or nothing. -/
inductive Threshold
  | level (l : Level)
  | off
deriving DecidableEq, Repr

namespace Threshold

/-- The threshold with a name or a number. -/
def ofName? (s : String) : Option Threshold :=
  match s with
  | "0" => some .off
  | "1" => some (.level .error)
  | "2" => some (.level .warn)
  | "3" => some (.level .info)
  | "4" => some (.level .debug)
  | "5" => some (.level .trace)
  | _ => if Text.lower s = "off" then some .off else (Level.ofName? s).map .level

def passes (t : Threshold) (l : Level) : Bool :=
  match t with
  | .level m => decide (l.verbosity ≤ m.verbosity)
  | .off => false

end Threshold

/-- What passes for targets that begin with a text. -/
structure Directive where
  target : String := ""
  threshold : Threshold
deriving DecidableEq

namespace Directive

/-- Characters of targets. -/
def isTargetChar (c : Char) : Bool := c.isAlphanum || c == '_' || c == ':' || c == '-'

def ofParts? : List String → Option Directive
  | [s] =>
    match Threshold.ofName? s with
    | some t => some { threshold := t }
    | none =>
      if !s.isEmpty && s.toList.all isTargetChar then some ⟨s, .level .trace⟩ else none
  | [target, s] =>
    if !target.isEmpty && target.toList.all isTargetChar then
      if s.isEmpty then some ⟨target, .level .trace⟩
      else (Threshold.ofName? s).map fun t => ⟨target, t⟩
    else none
  | _ => none

/-- Reads a directive. -/
def ofText? (s : String) : Option Directive := ofParts? (s.splitOn "=")

def covers (d : Directive) (target : String) : Bool := d.target.toList.isPrefixOf target.toList

end Directive

abbrev Filter : Type := List Directive

namespace Filter

/-- Reads a filter; what is no directive is left out. -/
def ofText (s : String) : Filter :=
  match (s.splitOn ",").filterMap Directive.ofText? with
  | [] => [{ threshold := .level .error }]
  | ds => ds

/-- A filter that lets a level and all above it pass. -/
def ofLevel (l : Level) : Filter := [{ threshold := .level l }]

/-- The directive that decides for a target: the longest, and of equals the last. -/
def decisive? (f : Filter) (target : String) : Option Directive :=
  (f.filter fun d => d.covers target).foldl (fun best d =>
    match best with
    | some b => if b.target.length ≤ d.target.length then some d else some b
    | none => some d) none

def passes (f : Filter) (target : String) (l : Level) : Bool :=
  (f.decisive? target).any fun d => d.threshold.passes l

end Filter

end LaunchDesk.Log
