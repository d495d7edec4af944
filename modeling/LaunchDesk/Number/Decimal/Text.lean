import LaunchDesk.Number.Decimal

/-!
# Decimals as text

A decimal is written in plain notation with exactly as many places as its scale. Reading allows a
sign, one point, and `_` after a digit; of the digits after the last place that fits, the first one
rounds.
-/

namespace LaunchDesk.Decimal

/-! ## Writing -/

/-- The digits of `n`, with zeros in front up to `width` of them. -/
def paddedDigits (width n : Nat) : List Char :=
  let ds := Nat.toDigits 10 n
  List.replicate (width - ds.length) '0' ++ ds

def textChars (a : Decimal) : List Char :=
  let ds := paddedDigits (a.scale + 1) a.mantissa
  let body :=
    if a.scale = 0 then ds
    else ds.take (ds.length - a.scale) ++ '.' :: ds.drop (ds.length - a.scale)
  if a.negative then '-' :: body else body

def text (a : Decimal) : String := String.ofList a.textChars

instance : ToString Decimal := ⟨text⟩

/-! ## Reading -/

/-- Why a text is no decimal. -/
inductive ReadFault
  | empty
  | unknownCharacter
  | twoPoints
  | leadingSeparator
  | noDigits
  | tooManyDigits
  | roundingOverflow
deriving DecidableEq, Repr

def ReadFault.message : ReadFault → String
  | .empty => "Invalid decimal: empty"
  | .unknownCharacter => "Invalid decimal: unknown character"
  | .twoPoints => "Invalid decimal: two decimal points"
  | .leadingSeparator => "Invalid decimal: must start lead with a number"
  | .noDigits => "Invalid decimal: no digits found"
  | .tooManyDigits => "Invalid decimal: overflow from too many digits"
  | .roundingOverflow => "Invalid decimal: overflow from mantissa after rounding"

/-- The value of a decimal digit. -/
def digit? (c : Char) : Option Nat :=
  if '0' ≤ c ∧ c ≤ '9' then some (c.toNat - 48) else none

/-- The fault of a character that cannot stand where it stands. -/
def strayFault (c : Char) : ReadFault :=
  if c = '.' then .twoPoints else if c = '_' then .leadingSeparator else .unknownCharacter

def finish (negative : Bool) (mantissa scale : Nat) : Except ReadFault Decimal :=
  match ofParts? negative mantissa scale with
  | some d => .ok d
  | none => .error .tooManyDigits

/-- The first character that is neither a digit nor a separator. -/
def stray? (cs : List Char) : Option Char := cs.find? fun c => (digit? c).isNone && c != '_'

/-- Rounds half up on `c`, the first character that no longer fits; those after it, `rest`, only
have to be digits and separators. -/
def roundOff (negative : Bool) (mantissa scale : Nat) (c : Char) (rest : List Char) :
    Except ReadFault Decimal :=
  match stray? (c :: rest) with
  | some d => .error (strayFault d)
  | none =>
    if ((digit? c).getD 0) < 5 then finish negative mantissa scale
    else if mantissa + 1 < limit then finish negative (mantissa + 1) scale
    else if scale = 0 then .error .roundingOverflow
    else finish negative ((mantissa + 5) / 10) (scale - 1)

/-- Where the reader stands: the number so far, and whether a point and a digit have been seen. -/
structure Reading where
  mantissa : Nat := 0
  scale : Nat := 0
  point : Bool := false
  digits : Bool := false

def readDigits (negative : Bool) (r : Reading) : List Char → Except ReadFault Decimal
  | [] => if r.digits then finish negative r.mantissa r.scale else .error .noDigits
  | c :: rest =>
    if r.point ∧ r.scale = maxScale then roundOff negative r.mantissa r.scale c rest
    else
      match digit? c with
      | some d =>
        let next := r.mantissa * 10 + d
        if next < limit then
          let scale := if r.point then r.scale + 1 else r.scale
          readDigits negative { r with mantissa := next, scale := scale, digits := true } rest
        else if r.point then roundOff negative r.mantissa r.scale c rest
        else .error .tooManyDigits
      | none =>
        if c = '.' ∧ !r.point then readDigits negative { r with point := true } rest
        else if c = '_' ∧ r.digits then readDigits negative r rest
        else .error (strayFault c)

/-- Reads plain notation. -/
def readPlain (cs : List Char) : Except ReadFault Decimal :=
  match cs with
  | [] => .error .empty
  | '-' :: rest => readDigits true {} rest
  | '+' :: rest => readDigits false {} rest
  | cs => readDigits false {} cs

/-- The number that digits write, with at most one `+` in front. -/
def exponent? (cs : List Char) : Option Nat :=
  let ds := match cs with
    | '+' :: rest => rest
    | cs => cs
  if ds ≠ [] ∧ ds.all (fun c => (digit? c).isSome) then some (Nat.ofDigitChars 10 ds 0) else none

/-- Moves the point `e` places to the left. Places beyond the largest scale round half up. -/
def shiftLeft? (a : Decimal) (e : Nat) : Option Decimal :=
  if maxScale < e then none
  else if a.scale + e ≤ maxScale then ofParts? a.negative a.mantissa (a.scale + e)
  else
    let d := a.scale + e - maxScale
    let q := a.mantissa / tenTo d
    let up := 5 ≤ a.mantissa / tenTo (d - 1) % 10
    ofParts? a.negative (if up then q + 1 else q) maxScale

/-- Drops trailing zeros after the point. -/
def trimZeros : Nat → Nat → Nat → Nat × Nat
  | 0, n, s => (n, s)
  | fuel + 1, n, s => if 0 < s ∧ n % 10 = 0 then trimZeros fuel (n / 10) (s - 1) else (n, s)

/-- Moves the point `e` places to the right. -/
def shiftRight? (a : Decimal) (e : Nat) : Option Decimal :=
  if e ≤ a.scale then ofParts? a.negative a.mantissa (a.scale - e)
  else
    (ofParts? false (tenTo e) 0).bind fun power =>
      match a.mul power with
      | .ok r =>
        let (n, s) := trimZeros r.scale r.mantissa r.scale
        ofParts? r.negative n s
      | .error _ => none

/-- Reads a plain number, `e` or `E`, and a whole exponent of at most 28. -/
def readScientific? (cs : List Char) : Option Decimal :=
  let isMark (c : Char) : Bool := c == 'e' || c == 'E'
  let base := cs.takeWhile fun c => !isMark c
  match cs.dropWhile fun c => !isMark c with
  | [] => none
  | _ :: exponent =>
    match readPlain base with
    | .error _ => none
    | .ok a =>
      match exponent with
      | '-' :: ds => if ds.head? = some '-' then none else (exponent? ds).bind a.shiftLeft?
      | ds => (exponent? ds).bind fun e => if maxScale < e then none else a.shiftRight? e

/-- Reads plain notation, and the scientific one if that fails; the fault is the first one's. -/
def read (s : String) : Except ReadFault Decimal :=
  match readPlain s.toList with
  | .ok d => .ok d
  | .error f =>
    match readScientific? s.toList with
    | some d => .ok d
    | none => .error f

def read? (s : String) : Option Decimal := (read s).toOption

end LaunchDesk.Decimal
