import LaunchDesk.Json.Value

/-!
# Numerals of documents

The numeral of a document is read in one pass. Digits are collected while they fit 64 bits; digits
that no longer fit are dropped and, before the point, counted in the exponent. A numeral without
point and exponent that fits 64 bits is a whole number; any other is a floating-point number, got by
one multiplication or division with a power of ten.
-/

namespace LaunchDesk.Numeral

def digitValue (c : Char) : Nat := c.toNat - 48

/-- The parts of a numeral as they are written. -/
structure Parts where
  negative : Bool
  whole : List Char
  fraction : Option (List Char)
  exponent : Option (Bool × List Char)

/-- Digits at the start, which must be there, and the rest. -/
def digits? (cs : List Char) : Option (List Char × List Char) :=
  match cs.takeWhile Char.isDigit with
  | [] => none
  | ds => some (ds, cs.dropWhile Char.isDigit)

/-- The whole part: a lone zero, or digits that start with none. -/
def whole? (cs : List Char) : Option (List Char × List Char) :=
  match digits? cs with
  | some ('0' :: _ :: _, _) => none
  | r => r

def fraction? : List Char → Option (Option (List Char) × List Char)
  | '.' :: rest => (digits? rest).map fun (ds, rest) => (some ds, rest)
  | cs => some (none, cs)

/-- The exponent, with whether it is negative. -/
def exponent? (cs : List Char) : Option (Option (Bool × List Char) × List Char) :=
  let signed (rest : List Char) : Option (Option (Bool × List Char) × List Char) :=
    match rest with
    | '-' :: rest => (digits? rest).map fun (ds, rest) => (some (true, ds), rest)
    | '+' :: rest => (digits? rest).map fun (ds, rest) => (some (false, ds), rest)
    | rest => (digits? rest).map fun (ds, rest) => (some (false, ds), rest)
  match cs with
  | 'e' :: rest => signed rest
  | 'E' :: rest => signed rest
  | cs => some (none, cs)

/-- The numeral at the start of `cs`, and the rest. -/
def scan? (cs : List Char) : Option (Parts × List Char) := do
  let (negative, cs) := match cs with
    | '-' :: rest => (true, rest)
    | cs => (false, cs)
  let (whole, cs) ← whole? cs
  let (fraction, cs) ← fraction? cs
  let (exponent, cs) ← exponent? cs
  return (⟨negative, whole, fraction, exponent⟩, cs)

/-! ## Values -/

/-- What fits 64 bits. -/
def wordLimit : Nat := twoTo 64

/-- Collects digits while they fit; gives the number and the digits from the first that does not. -/
def collect (n : Nat) : List Char → Nat × List Char
  | [] => (n, [])
  | c :: rest =>
    let next := n * 10 + digitValue c
    if next < wordLimit then collect next rest else (n, c :: rest)

/-- Exponents beyond this are not told apart. -/
def exponentLimit : Nat := twoTo 31

/-- Divides by `10 ^ 308` until the exponent is within reach, and then once more. -/
def scaleDown : Nat → Binary64 → Nat → Option Binary64
  | 0, x, _ => some x
  | fuel + 1, x, e =>
    if e ≤ 308 then (Binary64.tenTo? e).bind x.div?
    else if x.isZero then some x
    else ((Binary64.tenTo? 308).bind x.div?).bind fun y => scaleDown fuel y (e - 308)

/-- `n * 10 ^ e` by floating-point steps; none when it is too large. -/
def scaled? (n : Nat) (e : Int) : Option Binary64 :=
  (Binary64.ofNat? n).bind fun x =>
    if 308 < e then (if x.isZero then some x else none)
    else if 0 ≤ e then (Binary64.tenTo? e.toNat).bind x.mul?
    else scaleDown 8 x (-e).toNat

/-- The floating-point value of a numeral. -/
def real? (p : Parts) : Option Binary64 :=
  let (n, dropped) := collect 0 p.whole
  let (n, e) : Nat × Int :=
    match p.fraction with
    | none => (n, dropped.length)
    | some ds =>
      let (m, rest) := collect n ds
      (m, (dropped.length : Int) - (ds.length - rest.length))
  let magnitude : Option Binary64 :=
    match p.exponent with
    | none => scaled? n e
    | some (down, ds) =>
      let k := Nat.ofDigitChars 10 ds 0
      if k < exponentLimit then
        scaled? n (max (-(exponentLimit : Int))
          (min (exponentLimit - 1) (if down then e - k else e + k)))
      else if n ≠ 0 ∧ !down then none
      else some Binary64.zero
  magnitude.map fun x => { x with negative := p.negative }

/-- The value of a numeral; none when it is out of range. -/
def value? (p : Parts) : Option Number :=
  let n := Nat.ofDigitChars 10 p.whole 0
  let whole : Option Number :=
    match p.fraction, p.exponent with
    | none, none =>
      if p.negative then (if n = 0 then none else Number.ofInt? (-n)) else Number.ofInt? n
    | _, _ => none
  whole.orElse fun _ => (real? p).map .real

end LaunchDesk.Numeral
