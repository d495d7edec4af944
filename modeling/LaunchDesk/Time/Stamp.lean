import LaunchDesk.Json.Codec
import LaunchDesk.Text

/-!
# Time stamps

A stamp is a moment of universal time in calendar fields, to the nanosecond. Second 60 is the leap
second. Stamps are written with `Z` and as many of 0, 3, 6 or 9 places as needed. Reading accepts
any offset from universal time and is lenient about blanks and leading zeros.
-/

namespace LaunchDesk

/-- Calendar fields, not yet checked. -/
structure Stamp.Fields where
  year : Int
  month : Nat
  day : Nat
  hour : Nat
  minute : Nat
  second : Nat
  nanos : Nat
deriving DecidableEq

namespace Stamp.Fields

def isLeap (year : Int) : Bool := year % 4 == 0 && (year % 100 != 0 || year % 400 == 0)

def daysIn (year : Int) (month : Nat) : Nat :=
  if month = 2 then (if isLeap year then 29 else 28)
  else if month = 4 ∨ month = 6 ∨ month = 9 ∨ month = 11 then 30
  else 31

/-- Whether the fields name a moment of the supported years. -/
def Valid (f : Fields) : Prop :=
  -262143 ≤ f.year ∧ f.year ≤ 262142 ∧ 1 ≤ f.month ∧ f.month ≤ 12 ∧ 1 ≤ f.day ∧
    f.day ≤ daysIn f.year f.month ∧ f.hour < 24 ∧ f.minute < 60 ∧ f.second ≤ 60 ∧
    f.nanos < 1000000000

instance (f : Fields) : Decidable f.Valid := by unfold Valid; infer_instance

end Stamp.Fields

/-- A moment of universal time. -/
structure Stamp where
  fields : Stamp.Fields
  valid : fields.Valid := by decide
deriving DecidableEq

namespace Stamp

def ofFields? (f : Fields) : Option Stamp :=
  if h : f.Valid then some ⟨f, h⟩ else none

/-- The start of the first of January 1970. -/
def epoch : Stamp := ⟨⟨1970, 1, 1, 0, 0, 0, 0⟩, by decide⟩

instance : Inhabited Stamp := ⟨epoch⟩

/-! ## Days -/

/-- The days from the first of March of the year 0 to the date. -/
def dayNumber (year : Int) (month day : Nat) : Int :=
  let y := if month ≤ 2 then year - 1 else year
  let m : Int := if month ≤ 2 then (month : Int) + 9 else (month : Int) - 3
  365 * y + y / 4 - y / 100 + y / 400 + (153 * m + 2) / 5 + day - 1

/-- The date of a day number. -/
def dateOf (n : Int) : Int × Nat × Nat :=
  let era := n / 146097
  let dayOfEra := n % 146097
  let yearOfEra :=
    (dayOfEra - dayOfEra / 1460 + dayOfEra / 36524 - dayOfEra / 146096) / 365
  let dayOfYear := dayOfEra - (365 * yearOfEra + yearOfEra / 4 - yearOfEra / 100)
  let m := (5 * dayOfYear + 2) / 153
  let day := dayOfYear - (153 * m + 2) / 5 + 1
  let month := if m < 10 then m + 3 else m - 9
  (era * 400 + yearOfEra + (if month ≤ 2 then 1 else 0), month.toNat, day.toNat)

/-- The same moment for a clock that is `minutes` ahead; the second stays, a leap second too. -/
def Fields.minus (f : Fields) (minutes : Int) : Fields :=
  if minutes = 0 then f
  else
    let total := dayNumber f.year f.month f.day * 1440 + (f.hour * 60 + f.minute : Nat) - minutes
    let (year, month, day) := dateOf (total / 1440)
    let left := (total % 1440).toNat
    { f with year := year, month := month, day := day, hour := left / 60, minute := left % 60 }

/-! ## Writing -/

/-- The digits of `n`, with zeros in front up to `width` of them. -/
def padded (width n : Nat) : List Char :=
  let ds := Nat.toDigits 10 n
  List.replicate (width - ds.length) '0' ++ ds

/-- Four digits, and a sign for a year that does not have four. -/
def yearChars (year : Int) : List Char :=
  if 0 ≤ year ∧ year ≤ 9999 then padded 4 year.toNat
  else (if year < 0 then '-' else '+') :: padded 4 year.natAbs

def fractionChars (nanos : Nat) : List Char :=
  if nanos = 0 then []
  else if nanos % 1000000 = 0 then '.' :: padded 3 (nanos / 1000000)
  else if nanos % 1000 = 0 then '.' :: padded 6 (nanos / 1000)
  else '.' :: padded 9 nanos

def chars (s : Stamp) : List Char :=
  let f := s.fields
  yearChars f.year ++ '-' :: padded 2 f.month ++ '-' :: padded 2 f.day ++ 'T' :: padded 2 f.hour ++
    ':' :: padded 2 f.minute ++ ':' :: padded 2 f.second ++ fractionChars f.nanos ++ ['Z']

def text (s : Stamp) : String := String.ofList s.chars

/-! ## Reading -/

def skipBlanks (cs : List Char) : List Char := cs.dropWhile Text.isBlank

/-- A number of one to `width` digits at the start, and the rest. -/
def number? (width : Nat) (cs : List Char) : Option (Nat × List Char) :=
  let ds := (cs.take width).takeWhile Char.isDigit
  if ds.isEmpty then none else some (Nat.ofDigitChars 10 ds 0, cs.drop ds.length)

/-- A number after blanks. -/
def field? (width : Nat) (cs : List Char) : Option (Nat × List Char) :=
  number? width (skipBlanks cs)

/-- A year: up to four digits, or any number of them after a sign. -/
def year? (cs : List Char) : Option (Int × List Char) :=
  match skipBlanks cs with
  | '-' :: rest => (number? rest.length rest).map fun (n, rest) => (-(n : Int), rest)
  | '+' :: rest => (number? rest.length rest).map fun (n, rest) => ((n : Int), rest)
  | cs => (number? 4 cs).map fun (n, rest) => ((n : Int), rest)

/-- The character `c` after blanks. -/
def mark? (c : Char) (cs : List Char) : Option (List Char) :=
  match skipBlanks cs with
  | d :: rest => if d = c then some rest else none
  | [] => none

/-- The nanoseconds after the point; places beyond the ninth are dropped. -/
def fraction? : List Char → Option (Nat × List Char)
  | '.' :: rest =>
    let ds := rest.takeWhile Char.isDigit
    let kept := ds.take 9
    if ds.isEmpty then none
    else some (Nat.ofDigitChars 10 kept 0 * tenTo (9 - kept.length), rest.drop ds.length)
  | cs => some (0, cs)

/-- An offset from universal time in minutes: a letter, the name, or a sign, hours and minutes. -/
def offset? (cs : List Char) : Option (Int × List Char) :=
  match cs with
  | 'Z' :: rest => some (0, rest)
  | 'z' :: rest => some (0, rest)
  | u :: t :: c :: rest =>
    if [u, t, c].map Char.toUpper = ['U', 'T', 'C'] then some (0, rest)
    else if u = '+' ∨ u = '-' ∨ u = '\u2212' then
      if t.isDigit && c.isDigit then
        match rest.dropWhile fun d => d == ':' || Text.isBlank d with
        | m :: n :: rest =>
          if m.isDigit && n.isDigit && decide (m ≤ '5') then
            let minutes : Int := Nat.ofDigitChars 10 [t, c] 0 * 60 + Nat.ofDigitChars 10 [m, n] 0
            some (if u = '+' then minutes else -minutes, rest)
          else none
        | _ => none
      else none
    else none
  | _ => none

/-- The fields of a text and its offset in minutes. -/
def readFields? (cs : List Char) : Option (Fields × Int) := do
  let (year, cs) ← year? cs
  let cs ← mark? '-' cs
  let (month, cs) ← field? 2 cs
  let cs ← mark? '-' cs
  let (day, cs) ← field? 2 cs
  let cs ← match cs with
    | c :: rest => if c = 't' ∨ c = 'T' ∨ c = ' ' then some rest else none
    | [] => none
  let (hour, cs) ← field? 2 cs
  let cs ← mark? ':' cs
  let (minute, cs) ← field? 2 cs
  let cs ← mark? ':' cs
  let (second, cs) ← field? 2 cs
  let (nanos, cs) ← fraction? cs
  let (offset, cs) ← offset? (skipBlanks cs)
  if (skipBlanks cs).isEmpty then some (⟨year, month, day, hour, minute, second, nanos⟩, offset)
  else none

/-- The moment that a text names. -/
def read? (text : String) : Option Stamp := do
  let (fields, offset) ← readFields? text.toList
  let localTime ← ofFields? fields
  if -1440 < offset ∧ offset < 1440 then ofFields? (localTime.fields.minus offset) else none

instance : Codec Stamp where
  encode s := .string s.text
  decode
    | _, .string (some s) =>
      match read? s with
      | some t => .ok t
      | none => .error .unreadable
    | _, _ => .error .unreadable

end Stamp

end LaunchDesk
