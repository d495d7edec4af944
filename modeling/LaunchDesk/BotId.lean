import LaunchDesk.Json.Codec

/-!
# Identifiers

A `Uuid` is a 128-bit number written as 32 hexadecimal digits in groups. A `BotId` names one run of
the trading machine.
-/

namespace LaunchDesk

structure Uuid where
  value : Nat
  value_lt : value < twoTo 128 := by decide
deriving DecidableEq

namespace Uuid

def ofNat? (n : Nat) : Option Uuid := if h : n < twoTo 128 then some ⟨n, h⟩ else none

instance : Inhabited Uuid := ⟨⟨0, by decide⟩⟩

/-- All 32 digits, in lower case. -/
def digits (u : Uuid) : List Char :=
  let ds := Nat.toDigits 16 u.value
  List.replicate (32 - ds.length) '0' ++ ds

/-- Digits in groups of 8, 4, 4, 4 and 12. -/
def grouped (ds : List Char) : List Char :=
  ds.take 8 ++ '-' :: (ds.drop 8).take 4 ++ '-' :: (ds.drop 12).take 4 ++
    '-' :: (ds.drop 16).take 4 ++ '-' :: ds.drop 20

def text (u : Uuid) : String := String.ofList (grouped u.digits)

/-- The number of hexadecimal digits in either case. -/
def ofHex? (n : Nat) : List Char → Option Nat
  | [] => some n
  | c :: rest =>
    match Doc.hexDigit? c with
    | some d => ofHex? (n * 16 + d) rest
    | none => none

def simple? (ds : List Char) : Option Uuid :=
  if ds.length = 32 then (ofHex? 0 ds).bind ofNat? else none

/-- The grouped form. -/
def hyphenated? (cs : List Char) : Option Uuid :=
  let ds := cs.take 8 ++ (cs.drop 9).take 4 ++ (cs.drop 14).take 4 ++ (cs.drop 19).take 4 ++
    cs.drop 24
  if cs.length = 36 ∧ cs = grouped ds then simple? ds else none

/-- Reads 32 digits, the grouped form, and that form in braces or after its scheme. -/
def read? (s : String) : Option Uuid :=
  let cs := s.toList
  if cs.length = 32 then simple? cs
  else if cs.length = 36 then hyphenated? cs
  else if cs.length = 38 then
    if cs.head? = some '\x7b' ∧ cs.getLast? = some '\x7d' then hyphenated? (cs.drop 1).dropLast
    else none
  else if cs.length = 45 ∧ "urn:uuid:".toList.isPrefixOf cs then hyphenated? (cs.drop 9)
  else none

instance : Codec Uuid where
  encode u := .string u.text
  decode
    | _, .string (some s) =>
      match read? s with
      | some u => .ok u
      | none => .error .unreadable
    | _, _ => .error .unreadable

end Uuid

/-- The identifier of one run. -/
structure BotId where
  uuid : Uuid
deriving DecidableEq, Inhabited

namespace BotId

def text (b : BotId) : String := b.uuid.text

/-- The form shown in diagnostics. -/
def shown (b : BotId) : String := "BotId(" ++ b.text ++ ")"

instance : Codec BotId where
  encode b := encode b.uuid
  decode p d := (decode p d).map BotId.mk

end BotId

end LaunchDesk
