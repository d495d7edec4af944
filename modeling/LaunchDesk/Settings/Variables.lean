import LaunchDesk.Settings.Source

/-!
# Files of variables

A file of variables has a name, `=` and a value on each line, or a comment. Values may be quoted; in
double quotes and outside of quotes a backslash escapes. The variables of the environment stay as
they are, and of two with one name the first counts. Reading ends at a line that cannot be read.
-/

namespace LaunchDesk.Variables

/-- Where in a value the reading is. -/
inductive Mode
  | bare
  | single
  | double
  /-- Behind the value. -/
  | behind
deriving DecidableEq, Repr

/-- The character that a backslash and `c` stand for. -/
def escape? (c : Char) : Option Char :=
  if c = '\\' ∨ c = '\'' ∨ c = '\x22' ∨ c = '$' ∨ c = ' ' then some c
  else if c = 'n' then some '\n'
  else none

/-- Reads a value up to the end of its line. -/
def value? (acc : List Char) : Mode → List Char → Option (List Char)
  | .bare, [] => some acc.reverse
  | .behind, [] => some acc.reverse
  | _, [] => none
  | .single, c :: cs =>
    if c = '\'' then value? acc .bare cs else value? (c :: acc) .single cs
  | .behind, c :: cs =>
    if c = ' ' ∨ c = '\t' then value? acc .behind cs
    else if c = '#' then some acc.reverse
    else none
  | .double, '\\' :: c :: cs => (escape? c).bind fun x => value? (x :: acc) .double cs
  | .double, c :: cs =>
    if c = '\x22' then value? acc .bare cs else value? (c :: acc) .double cs
  | .bare, '\\' :: c :: cs => (escape? c).bind fun x => value? (x :: acc) .bare cs
  | .bare, ['\\'] => some acc.reverse
  | .bare, c :: cs =>
    if c = '\'' then value? acc .single cs
    else if c = '\x22' then value? acc .double cs
    else if c = ' ' ∨ c = '\t' then value? acc .behind cs
    else value? (c :: acc) .bare cs

def isNameStart (c : Char) : Bool := c.isAlpha || c == '_'

def isNameChar (c : Char) : Bool := c.isAlphanum || c == '_' || c == '.'

def skipBlanks (cs : List Char) : List Char := cs.dropWhile Text.isBlank

/-- A name and the rest behind blanks. -/
def name? (cs : List Char) : Option (String × List Char) :=
  if cs.head?.any isNameStart then
    some (String.ofList (cs.takeWhile isNameChar), skipBlanks (cs.dropWhile isNameChar))
  else none

/-- The value behind `=`. -/
def assigned? (name : String) : List Char → Option (String × String)
  | '=' :: cs =>
    match skipBlanks cs with
    | [] => some (name, "")
    | '#' :: _ => some (name, "")
    | cs => (value? [] .bare cs).map fun v => (name, String.ofList v)
  | _ => none

/-- What a line says: nothing, or a variable. -/
def line? (cs : List Char) : Option (Option (String × String)) :=
  match skipBlanks cs with
  | [] => some none
  | '#' :: _ => some none
  | cs =>
    match name? cs with
    | none => none
    | some (name, cs) =>
      if name = "export" && cs.head? != some '=' then
        ((name? cs).bind fun (name, cs) => assigned? name cs).map some
      else (assigned? name cs).map some

/-- The variables of lines, up to one that cannot be read. -/
def lines : List String → Environment
  | [] => []
  | l :: ls =>
    match line? l.toList with
    | none => []
    | some none => lines ls
    | some (some e) => e :: lines ls

/-- A line without the end that other systems give it. -/
def withoutReturn (s : String) : String :=
  if s.toList.getLast? = some '\r' then String.ofList s.toList.dropLast else s

/-- The variables of a file. -/
def read (text : String) : Environment := lines ((text.splitOn "\n").map withoutReturn)

/-- An environment with the variables of a file that it does not have. -/
def extend (environment : Environment) (file : Option String) : Environment :=
  (file.elim [] read).foldl
    (fun env e => if (env.lookup e.1).isSome then env else env ++ [e]) environment

end LaunchDesk.Variables
