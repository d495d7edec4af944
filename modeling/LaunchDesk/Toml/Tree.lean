import LaunchDesk.Settings.Given

/-!
# Trees of tables

The tables of a document as they grow line by line. A table is made by its header, by the header of
a table inside it, or by a key with dots; what made it decides what may still be added to it. No key
is set twice and no header comes twice.
-/

namespace LaunchDesk.Toml

/-- What made a table. -/
inductive Maker
  | header
  /-- The header of a table inside it. -/
  | innerHeader
  /-- A key with dots. -/
  | dots
deriving DecidableEq, Repr

inductive Node
  | value (v : Given)
  | table (maker : Maker) (entries : List (String × Node))
  /-- Tables under one name, the last of them apart. -/
  | rows (earlier : List (List (String × Node))) (last : List (String × Node))

abbrev Entries : Type := List (String × Node)

namespace Entries

/-- Puts a node under a key that is there, or adds it at the end. -/
def put (es : Entries) (key : String) (n : Node) : Entries :=
  if es.any fun e => e.1 == key then es.map fun e => if e.1 == key then (key, n) else e
  else es ++ [(key, n)]

/-- Changes the table at the end of a path, and makes the tables on the way that are missing. A key
with dots cannot go through a table that has a header. -/
def within (dotted : Bool) (change : Maker → Entries → Option Entries) :
    List String → Maker → Entries → Option Entries
  | [], maker, es => change maker es
  | key :: path, _, es =>
    match es.lookup key with
    | none =>
      let maker : Maker := if dotted then .dots else .innerHeader
      (within dotted change path maker []).map fun sub => es.put key (.table maker sub)
    | some (.table maker sub) =>
      if dotted && maker = .header then none
      else (within dotted change path maker sub).map fun sub => es.put key (.table maker sub)
    | some (.rows earlier last) =>
      (within dotted change path .header last).map fun last => es.put key (.rows earlier last)
    | some (.value _) => none

/-- Sets a key that is not set. -/
def setNew (key : String) (n : Node) (es : Entries) : Option Entries :=
  if (es.lookup key).isSome then none else some (es ++ [(key, n)])

/-- Sets a key with dots in front of it. A table that a header made takes no such key. -/
def setDotted (path : List String) (key : String) (v : Given) (es : Entries) : Option Entries :=
  within true
    (fun maker es => if !path.isEmpty && maker != .dots then none else es.setNew key (.value v))
    path .header es

/-- Begins a table with a header. -/
def openTable (key : String) (es : Entries) : Option Entries :=
  match es.lookup key with
  | none => some (es.put key (.table .header []))
  | some (.table .innerHeader sub) => some (es.put key (.table .header sub))
  | _ => none

/-- Begins one more table under a name. -/
def openRow (key : String) (es : Entries) : Option Entries :=
  match es.lookup key with
  | none => some (es.put key (.rows [] []))
  | some (.rows earlier last) => some (es.put key (.rows (earlier ++ [last]) []))
  | _ => none

end Entries

mutual

/-- The value of a node. -/
def Node.toGiven : Node → Given
  | .value v => v
  | .table _ es => .table (entriesToGiven es)
  | .rows earlier last => .list (rowsToGiven earlier ++ [.table (entriesToGiven last)])

def entriesToGiven : List (String × Node) → List (String × Given)
  | [] => []
  | (key, n) :: es => (key, n.toGiven) :: entriesToGiven es

def rowsToGiven : List (List (String × Node)) → List Given
  | [] => []
  | es :: rows => .table (entriesToGiven es) :: rowsToGiven rows

end

end LaunchDesk.Toml
