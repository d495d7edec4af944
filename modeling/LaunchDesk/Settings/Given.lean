import LaunchDesk.Number.Decimal.Text
import LaunchDesk.Number.Real

/-!
# Given values

A setting is given by a file or by the environment, as a value of some kind. It is read as the kind
that the setting has, with some freedom: words and numbers stand for truth values, truth values and
texts for numbers, everything plain for a text.
-/

namespace LaunchDesk

/-- A value as it is given. -/
inductive Given
  | bool (b : Bool)
  | whole (n : Int)
  | real (x : Real)
  | text (s : String)
  | list (items : List Given)
  | table (entries : List (String × Given))

namespace Given

/-- Whole numbers of a given value are of 64 bits with a sign. -/
def isWord (n : Int) : Bool := decide (-(twoTo 63 : Int) ≤ n) && decide (n < twoTo 63)

/-- Reads a number with a sign, as far as it fits. -/
def readWord? (s : String) : Option Int :=
  match s.toList with
  | '-' :: cs =>
    if cs.head? = some '+' then none
    else
      match Whole.read (twoTo 63 + 1) (String.ofList cs) with
      | .ok n => some (-n)
      | .error _ => none
  | _ => (Whole.read (twoTo 63) s).toOption.map Int.ofNat

/-- A value from the environment: a truth value, a number, or else the text itself. -/
def ofVariable (s : String) : Given :=
  match Text.lower s with
  | "true" => .bool true
  | "false" => .bool false
  | _ =>
    match readWord? s with
    | some n => .whole n
    | none =>
      match Real.read? s with
      | some x => .real x
      | none => .text s

/-- The truth value of a word, with or without the digits. -/
def word? (digits : Bool) (s : String) : Option Bool :=
  let s := Text.lower s
  if s = "true" ∨ s = "on" ∨ s = "yes" ∨ (digits ∧ s = "1") then some true
  else if s = "false" ∨ s = "off" ∨ s = "no" ∨ (digits ∧ s = "0") then some false
  else none

/-- What fits 64 bits. -/
def limit : Nat := twoTo 64

/-- As a number from zero on, of 64 bits. -/
def toWhole? : Given → Option Nat
  | .bool b => some b.toNat
  | .whole n => if 0 ≤ n then some n.toNat else none
  | .real x => some (x.toWhole (limit - 1))
  | .text s =>
    match word? false s with
    | some b => some b.toNat
    | none => (Whole.read limit s).toOption
  | .list _ => none
  | .table _ => none

def toUInt64? (v : Given) : Option UInt64 := v.toWhole?.map UInt64.ofNat

def toUInt32? (v : Given) : Option UInt32 :=
  v.toWhole?.bind fun n => if n < UInt32.size then some (UInt32.ofNat n) else none

def toBool? : Given → Option Bool
  | .bool b => some b
  | .whole n => some (n != 0)
  | .real x => some !x.isZero
  | .text s => word? true s
  | .list _ => none
  | .table _ => none

def toText? : Given → Option String
  | .bool b => some (toString b)
  | .whole n => some (toString n)
  | .real x => some x.text
  | .text s => some s
  | .list _ => none
  | .table _ => none

def toDecimal? : Given → Option Decimal
  | .bool _ => none
  | .whole n => Decimal.ofInt? n
  | .real x => Decimal.read? x.text
  | .text s => Decimal.read? s
  | .list _ => none
  | .table _ => none

/-- The values of a record with these names: by name in a table, in order in a list. -/
def fields? (names : List String) : Given → Option (List (Option Given))
  | .table entries => some (names.map fun name => entries.lookup name)
  | .list items => some (names.zipIdx.map fun (_, k) => items[k]?)
  | _ => none

end Given

end LaunchDesk
