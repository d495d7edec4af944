/-!
# Decimals

A decimal is a sign, a mantissa below 2^96 and a scale of at most 28 places. The scale is part of
the value: `1.5` and `1.50` are equal numbers and different decimals. An operation computes its
exact result and drops the fewest digits that make it fit, a half going to the even neighbour; a
result whose integer part does not fit is an overflow.
-/

namespace LaunchDesk

/-! ## The bases of the number formats -/

def twoTo (k : Nat) : Nat := Nat.pow 2 k

def tenTo (k : Nat) : Nat := Nat.pow 10 k

/-! ## The format -/

/-- The first mantissa that does not fit. -/
def Decimal.limit : Nat := twoTo 96

/-- The largest scale. -/
def Decimal.maxScale : Nat := 28

/-- A signed number `mantissa / 10 ^ scale`. -/
structure Decimal where
  negative : Bool
  mantissa : Nat
  scale : Nat
  mantissa_lt : mantissa < Decimal.limit
  scale_le : scale ≤ Decimal.maxScale
deriving DecidableEq

namespace Decimal

/-- Why an operation has no result. -/
inductive Fault
  | addition
  | subtraction
  | multiplication
  | division
  | zeroDivisor
deriving DecidableEq, Repr

/-- The text of an arithmetic fault. -/
def Fault.message : Fault → String
  | .addition => "Addition overflowed"
  | .subtraction => "Subtraction overflowed"
  | .multiplication => "Multiplication overflowed"
  | .division => "Division overflowed"
  | .zeroDivisor => "Division by zero"

/-- The constant `mantissa / 10 ^ scale`: every small mantissa fits, and the scale is capped. -/
def ofSmall (mantissa : UInt32) (scale : Nat) : Decimal where
  negative := false
  mantissa := mantissa.toNat
  scale := min scale maxScale
  mantissa_lt := Nat.lt_trans mantissa.toNat_lt (by decide)
  scale_le := Nat.min_le_right scale maxScale

def zero : Decimal := ofSmall 0 0

def one : Decimal := ofSmall 1 0

def hundred : Decimal := ofSmall 100 0

instance : Inhabited Decimal := ⟨zero⟩

def isZero (a : Decimal) : Bool := a.mantissa == 0

/-- The decimal with these parts, if they fit; a zero has no sign. -/
def ofParts? (negative : Bool) (mantissa scale : Nat) : Option Decimal :=
  if h : mantissa < limit ∧ scale ≤ maxScale then
    some ⟨negative && mantissa != 0, mantissa, scale, h.1, h.2⟩
  else
    none

/-- The whole number `n`, if it fits. -/
def ofInt? (n : Int) : Option Decimal := ofParts? (n < 0) n.natAbs 0

/-- The other sign, also of a zero. -/
def neg (a : Decimal) : Decimal := { a with negative := !a.negative }

/-! ## Order -/

/-- The mantissa with its sign, written at scale `s`. -/
def scaledTo (a : Decimal) (s : Nat) : Int :=
  let m : Int := a.mantissa * tenTo (s - a.scale)
  if a.negative then -m else m

/-- Compares as numbers: scales are brought to the larger one. -/
def cmp (a b : Decimal) : Ordering :=
  let s := max a.scale b.scale
  compare (a.scaledTo s) (b.scaledTo s)

def le (a b : Decimal) : Bool := a.cmp b != .gt

def lt (a b : Decimal) : Bool := a.cmp b == .lt

/-! ## Rounding -/

/-- `n / d` to the nearest whole number, a half to the even one. -/
def halfEven (n d : Nat) : Nat :=
  let q := n / d
  let twice := 2 * (n % d)
  if twice > d ∨ (twice = d ∧ q % 2 = 1) then q + 1 else q

/-- `mantissa / 10 ^ scale` with the fewest digits dropped that make it a decimal. -/
def fit? (negative : Bool) (mantissa scale : Nat) : Option Decimal :=
  (List.range (scale + 1)).findSome? fun dropped =>
    ofParts? negative (halfEven mantissa (tenTo dropped)) (scale - dropped)

/-! ## Sums and products -/

/-- The signed mantissa `n` at scale `scale`, made to fit. -/
def ofScaled? (n : Int) (scale : Nat) : Option Decimal := fit? (n < 0) n.natAbs scale

/-- A zero on the left gives the right operand, a zero on the right the left one, scale included. -/
def add (a b : Decimal) : Except Fault Decimal :=
  if a.isZero then .ok b
  else if b.isZero then .ok a
  else
    let s := max a.scale b.scale
    match ofScaled? (a.scaledTo s + b.scaledTo s) s with
    | some r => .ok r
    | none => .error .addition

/-- As `add` of the opposite, but a zero taken from a zero stays as it is. -/
def sub (a b : Decimal) : Except Fault Decimal :=
  if a.isZero then .ok (if b.isZero then b else b.neg)
  else if b.isZero then .ok a
  else
    let s := max a.scale b.scale
    match ofScaled? (a.scaledTo s - b.scaledTo s) s with
    | some r => .ok r
    | none => .error .subtraction

/-- A product with a zero is the plain zero. -/
def mul (a b : Decimal) : Except Fault Decimal :=
  if a.isZero || b.isZero then .ok zero
  else
    match fit? (a.negative != b.negative) (a.mantissa * b.mantissa) (a.scale + b.scale) with
    | some r => .ok r
    | none => .error .multiplication

/-! ## Quotients -/

/-- A quotient under way: the digits so far, what is left over, and the scale of the digits. -/
structure Quotient where
  digits : Nat
  left : Nat
  scale : Int

/-- The most digits, up to nine, that can be appended to `q` at scale `scale`. -/
def room (q : Nat) (scale : Int) : Nat :=
  ((List.range 10).reverse.find? fun (p : Nat) =>
    decide (scale + p ≤ maxScale) && decide (q * tenTo p < limit)).getD 0

/-- One digit less, when the digits no longer fit: a half goes to the even neighbour, and more than
a half goes up, where `sticky` says that something was left over. -/
def shorten? (n : Nat) (scale : Int) (sticky : Bool) : Option (Nat × Int) :=
  if scale < 1 then none
  else
    let q := n / 10
    let r := n % 10
    some (if r > 5 ∨ (r = 5 ∧ (sticky ∨ q % 2 = 1)) then q + 1 else q, scale - 1)

/-- Rounds the last digit, when no further one fits. -/
def roundLast? (divisor : Nat) (q : Quotient) : Option (Nat × Int) :=
  let twice := 2 * q.left
  if twice > divisor ∨ (twice = divisor ∧ q.digits % 2 = 1) then
    if q.digits + 1 < limit then some (q.digits + 1, q.scale)
    else shorten? (q.digits + 1) q.scale true
  else
    some (q.digits, q.scale)

/-- Appends `p` digits of the division. -/
def Quotient.extend (divisor : Nat) (q : Quotient) (p : Nat) : Quotient :=
  let more := q.left * tenTo p
  { digits := q.digits * tenTo p + more / divisor, left := more % divisor, scale := q.scale + p }

/-- Appends digits while something is left over or the scale is below zero. The flag of the answer
says whether anything ever was left over. Each round but the last raises the scale, so `fuel`
rounds are enough when `fuel` exceeds the distance to the largest scale. -/
def divideLoop (divisor : Nat) : Nat → Quotient → Bool → Option (Nat × Int × Bool)
  | 0, q, uneven => some (q.digits, q.scale, uneven)
  | fuel + 1, q, uneven =>
    if q.left = 0 then
      if 0 ≤ q.scale then some (q.digits, q.scale, uneven)
      else
        let next := q.extend divisor (min 9 (-q.scale).toNat)
        if next.digits < limit then divideLoop divisor fuel next uneven else none
    else
      let p := room q.digits q.scale
      if q.scale + p < 0 ∧ p < 9 then none
      else if p = 0 then (roundLast? divisor q).map fun (d, s) => (d, s, true)
      else
        let next := q.extend divisor p
        if next.digits < limit then divideLoop divisor fuel next true
        else (shorten? next.digits next.scale (next.left != 0)).map fun (d, s) => (d, s, true)

/-- Drops `k` zeros if the digits are divisible by `low` and by `10 ^ k` and the scale allows. -/
def dropZeros (low k : Nat) (n scale : Nat) : Nat × Nat :=
  if n % low = 0 ∧ k ≤ scale ∧ n % tenTo k = 0 then (n / tenTo k, scale - k) else (n, scale)

/-- Drops eight zeros at a time while the low 32 bits are clear, then at most four, two and one. -/
def stripZeros (n scale : Nat) : Nat × Nat :=
  let (n, scale) := (List.range 3).foldl (fun (n, s) _ => dropZeros (twoTo 32) 8 n s) (n, scale)
  let (n, scale) := dropZeros 16 4 n scale
  let (n, scale) := dropZeros 4 2 n scale
  dropZeros 2 1 n scale

/-- The quotient to as many places as fit; an exact one keeps the difference of the scales. -/
def div (a b : Decimal) : Except Fault Decimal :=
  if b.isZero then .error .zeroDivisor
  else if a.isZero then .ok zero
  else
    let first : Quotient :=
      { digits := a.mantissa / b.mantissa, left := a.mantissa % b.mantissa,
        scale := (a.scale : Int) - b.scale }
    let result := (divideLoop b.mantissa 64 first false).bind fun (n, s, uneven) =>
      let (n, s) := if uneven then stripZeros n s.toNat else (n, s.toNat)
      ofParts? (a.negative != b.negative) n s
    match result with
    | some r => .ok r
    | none => .error .division

/-! ## Fewer places -/

/-- At most `places` places, a half to the even neighbour; no places are added. -/
def roundTo (places : Nat) (a : Decimal) : Decimal :=
  if a.scale ≤ places then a
  else (ofParts? a.negative (halfEven a.mantissa (tenTo (a.scale - places))) places).getD a

end Decimal

end LaunchDesk
