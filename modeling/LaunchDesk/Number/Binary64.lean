import LaunchDesk.Number.Decimal

/-!
# Binary floating-point numbers

A finite 64-bit number is a sign and `significand * 2 ^ exponent`, kept with the exponent as low as
the format allows, so that equal numbers are equal values. Rounding is of exact fractions, to the
nearest number and a half to the even significand. The text of a number has the fewest digits that
read back.
-/

namespace LaunchDesk

/-- A finite binary64 number. A significand below 2^52 only stands at the lowest exponent. -/
structure Binary64 where
  negative : Bool
  significand : Nat
  exponent : Int
deriving DecidableEq

namespace Binary64

/-- The number of bits of a significand. -/
def bits : Nat := 53

/-- The exponent of the smallest numbers. -/
def lowest : Int := -1074

/-- The largest exponent of a finite number. -/
def highest : Int := 971

def zero : Binary64 := ⟨false, 0, lowest⟩

instance : Inhabited Binary64 := ⟨zero⟩

def isZero (x : Binary64) : Bool := x.significand == 0

def neg (x : Binary64) : Binary64 := { x with negative := !x.negative }

/-- The fraction `numerator x / denominator x` is the number without its sign. -/
def numerator (x : Binary64) : Nat := x.significand * twoTo x.exponent.toNat

def denominator (x : Binary64) : Nat := twoTo (-x.exponent).toNat

/-! ## Rounding -/

/-- `num / den` to the nearest whole number, a half to the even one. -/
def nearest (num den : Nat) : Nat :=
  let q := num / den
  let twice := 2 * (num % den)
  if twice > den ∨ (twice = den ∧ q % 2 = 1) then q + 1 else q

/-- `num / den / 2 ^ e` to the nearest whole number. -/
def nearestAt (num den : Nat) (e : Int) : Nat :=
  nearest (num * twoTo (-e).toNat) (den * twoTo e.toNat)

/-- The exponent at which `num / den` has a significand of 53 bits, or the lowest one. -/
def exponentFor (num den : Nat) : Int :=
  let guess : Int := (num.log2 : Int) - den.log2 - bits
  let fits (e : Int) : Bool := num * twoTo (-e).toNat < den * twoTo e.toNat * twoTo bits
  max lowest (if fits guess then guess else guess + 1)

/-- The number nearest to `num / den`; none beyond the largest finite number. -/
def ofFraction? (negative : Bool) (num den : Nat) : Option Binary64 :=
  if num = 0 then some ⟨negative, 0, lowest⟩
  else
    let e := exponentFor num den
    let m := nearestAt num den e
    let (m, e) := if m = twoTo bits then (twoTo (bits - 1), e + 1) else (m, e)
    if e ≤ highest then some ⟨negative, m, e⟩ else none

def ofNat? (n : Nat) : Option Binary64 := ofFraction? false n 1

/-- The product, rounded; none beyond the largest finite number. -/
def mul? (x y : Binary64) : Option Binary64 :=
  ofFraction? (x.negative != y.negative) (x.numerator * y.numerator)
    (x.denominator * y.denominator)

/-- The quotient, rounded; none for a zero divisor or beyond the largest finite number. -/
def div? (x y : Binary64) : Option Binary64 :=
  if y.isZero then none
  else
    ofFraction? (x.negative != y.negative) (x.numerator * y.denominator)
      (x.denominator * y.numerator)

/-- The number nearest to `10 ^ k`. -/
def tenTo? (k : Nat) : Option Binary64 := ofNat? (tenTo k)

/-- The number nearest to `digits * 10 ^ e`, rounded once. -/
def ofDecimal? (negative : Bool) (digits : Nat) (e : Int) : Option Binary64 :=
  ofFraction? negative (digits * tenTo e.toNat) (tenTo (-e).toNat)

/-! ## The fewest digits -/

/-- Whether `digits * 10 ^ e` reads as the magnitude of `x`. -/
def readsBack (x : Binary64) (digits : Nat) (e : Int) : Bool :=
  match ofDecimal? false digits e with
  | some y => y.significand == x.significand && y.exponent == x.exponent
  | none => false

/-- The distance of `digits * 10 ^ e` from `x`, in units that do not depend on `digits`. -/
def distance (x : Binary64) (digits : Nat) (e : Int) : Nat :=
  let a := digits * tenTo e.toNat * x.denominator
  let b := x.numerator * tenTo (-e).toNat
  (a - b) + (b - a)

/-- The better of the two neighbours of `x` on the grid of multiples of `10 ^ e`, if one reads back.
-/
def onGrid? (x : Binary64) (e : Int) : Option (Nat × Int) :=
  let low := x.numerator * tenTo (-e).toNat / (x.denominator * tenTo e.toNat)
  let high := low + 1
  match readsBack x low e, readsBack x high e with
  | true, true => some (if distance x high e < distance x low e then high else low, e)
  | true, false => some (low, e)
  | false, true => some (high, e)
  | false, false => none

/-- The power of ten just above the magnitude of `x`, at most one too high. -/
def tenExponent (x : Binary64) : Int :=
  let n := (Nat.toDigits 10 (x.numerator / x.denominator)).length
  if x.denominator ≤ x.numerator then n
  else 1 - (Nat.toDigits 10 (x.denominator / x.numerator)).length

/-- The digits and the exponent of ten of the shortest text that reads back as `x`. -/
def shortest (x : Binary64) : Nat × Int :=
  if x.isZero then (0, 0)
  else
    let top := x.tenExponent
    ((List.range 19).findSome? fun (k : Nat) => onGrid? x (top - k)).getD (0, 0)

/-- Without zeros at the end. -/
def trim : Nat → Nat → Int → Nat × Int
  | 0, n, e => (n, e)
  | fuel + 1, n, e => if n ≠ 0 ∧ n % 10 = 0 then trim fuel (n / 10) (e + 1) else (n, e)

def shortestDigits (x : Binary64) : List Char × Int :=
  let (n, e) := shortest x
  let (n, e) := trim 400 n e
  (Nat.toDigits 10 n, e)

/-! ## Texts -/

def signed (x : Binary64) (body : List Char) : List Char :=
  if x.negative then '-' :: body else body

/-- Digits with `e` zeros after them, or with a point `-e` places from their end. -/
def plainDigits (ds : List Char) (e : Int) : List Char :=
  if 0 ≤ e then ds ++ List.replicate e.toNat '0'
  else
    let places := (-e).toNat
    if places < ds.length then ds.take (ds.length - places) ++ '.' :: ds.drop (ds.length - places)
    else '0' :: '.' :: List.replicate (places - ds.length) '0' ++ ds

/-- Plain notation, without a point when the number is whole. -/
def plainText (x : Binary64) : String :=
  let (ds, e) := x.shortestDigits
  String.ofList (x.signed (plainDigits ds e))

/-- The notation of JSON documents: plain from 10^-5 up to below 10^16, always with a point, and
otherwise one digit, the rest behind a point, and `e`. -/
def documentText (x : Binary64) : String :=
  if x.isZero then String.ofList (x.signed ['0', '.', '0'])
  else
    let (ds, e) := x.shortestDigits
    let point := (ds.length : Int) + e
    let body :=
      if 0 ≤ e ∧ point ≤ 16 then plainDigits ds e ++ ['.', '0']
      else if -5 < point ∧ point ≤ 16 then plainDigits ds e
      else
        let rest := ds.drop 1
        ds.take 1 ++ (if rest.isEmpty then [] else '.' :: rest) ++
          'e' :: (toString (point - 1)).toList
    String.ofList (x.signed body)

end Binary64

end LaunchDesk
