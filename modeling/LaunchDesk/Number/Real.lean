import LaunchDesk.Number.Binary64
import LaunchDesk.Text

/-!
# Numbers as text

A floating-point number is finite, infinite or not a number. Its text may have a point, an exponent
and one of the words for what is not finite, in any case. The text of an unsigned number of a
bounded kind is digits with at most one `+` in front; the first character that makes the reading
fail decides the fault.
-/

namespace LaunchDesk

inductive Real
  | finite (x : Binary64)
  | infinite (negative : Bool)
  | notANumber
deriving DecidableEq

namespace Real

/-! ## Writing -/

/-- Plain notation. -/
def text : Real → String
  | .finite x => x.plainText
  | .infinite false => "inf"
  | .infinite true => "-inf"
  | .notANumber => "NaN"

/-! ## Reading -/

/-- The number `digits * 10 ^ e`, rounded; what is far too large or far too small is not computed.
-/
def ofDigits (negative : Bool) (digits : List Char) (e : Int) : Real :=
  let digits := digits.dropWhile (· == '0')
  let top : Int := digits.length + e
  if digits.isEmpty ∨ top < -400 then .finite ⟨negative, 0, Binary64.lowest⟩
  else if 400 < top then .infinite negative
  else
    ((Binary64.ofDecimal? negative (Nat.ofDigitChars 10 digits 0) e).map .finite).getD
      (.infinite negative)

/-- An exponent with its letter; none for an empty text. -/
def exponent? : List Char → Option Int
  | [] => some 0
  | c :: rest =>
    if c = 'e' ∨ c = 'E' then
      let (down, ds) : Bool × List Char :=
        match rest with
        | '-' :: ds => (true, ds)
        | '+' :: ds => (false, ds)
        | ds => (false, ds)
      if ds.isEmpty ∨ !ds.all Char.isDigit then none
      else
        let k : Int := Nat.ofDigitChars 10 ds 0
        some (if down then -k else k)
    else none

/-- Digits with at most one point, and an exponent. -/
def numeral? (negative : Bool) (cs : List Char) : Option Real :=
  let whole := cs.takeWhile Char.isDigit
  let cs := cs.dropWhile Char.isDigit
  let (fraction, cs) : List Char × List Char :=
    match cs with
    | '.' :: rest => (rest.takeWhile Char.isDigit, rest.dropWhile Char.isDigit)
    | cs => ([], cs)
  if whole.isEmpty && fraction.isEmpty then none
  else (exponent? cs).map fun e => ofDigits negative (whole ++ fraction) (e - fraction.length)

/-- A number without its sign. -/
def unsigned? (negative : Bool) (cs : List Char) : Option Real :=
  match Text.lower (String.ofList cs) with
  | "inf" => some (.infinite negative)
  | "infinity" => some (.infinite negative)
  | "nan" => some .notANumber
  | _ => numeral? negative cs

def read? (s : String) : Option Real :=
  match s.toList with
  | '-' :: cs => unsigned? true cs
  | '+' :: cs => unsigned? false cs
  | cs => unsigned? false cs

/-! ## Rounding -/

/-- The nearest whole number from 0 to `most`, a half away from zero. -/
def toWhole (most : Nat) : Real → Nat
  | .finite x =>
    if x.negative then 0 else min most ((2 * x.numerator + x.denominator) / (2 * x.denominator))
  | .infinite negative => if negative then 0 else most
  | .notANumber => 0

def isZero : Real → Bool
  | .finite x => x.isZero
  | _ => false

end Real

/-! ## Whole numbers -/

namespace Whole

/-- Why a text is no whole number of the kind. -/
inductive ReadFault
  | empty
  | invalidDigit
  | tooLarge
deriving DecidableEq, Repr

def ReadFault.message : ReadFault → String
  | .empty => "cannot parse integer from empty string"
  | .invalidDigit => "invalid digit found in string"
  | .tooLarge => "number too large to fit in target type"

/-- Reads digits onto `n`, staying below `limit`. -/
def readDigits (limit n : Nat) : List Char → Except ReadFault Nat
  | [] => .ok n
  | c :: rest =>
    if '0' ≤ c ∧ c ≤ '9' then
      let next := n * 10 + (c.toNat - 48)
      if next < limit then readDigits limit next rest else .error .tooLarge
    else .error .invalidDigit

/-- The number below `limit` that `s` writes. -/
def read (limit : Nat) (s : String) : Except ReadFault Nat :=
  match s.toList with
  | [] => .error .empty
  | ['+'] => .error .invalidDigit
  | '+' :: rest => readDigits limit 0 rest
  | cs => readDigits limit 0 cs

end Whole

end LaunchDesk
