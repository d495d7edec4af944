import LaunchDesk.Json.Numeral

/-!
# Document texts

A text is read into a tree that goes as far as the text makes sense. Where it stops to do so there
is a `broken` leaf or a container that is not closed, and nothing to the right of it. A reader of
typed values walks this tree from left to right and so meets the first problem of the text first,
whether it is one of form or of content.

Two kinds of leaf are well formed but have no value: a string with half of a surrogate pair, and a
numeral out of range. They do not matter where a value is skipped.
-/

namespace LaunchDesk

/-- What a document text contains, as far as it can be read. -/
inductive Doc
  | broken
  | null
  | bool (value : Bool)
  | number (value : Option Number)
  | string (value : Option String)
  | array (items : List Doc) (closed : Bool)
  | object (members : List (Option String × Doc)) (closed : Bool)

namespace Doc

instance : Inhabited Doc := ⟨.broken⟩

/-! ## Blanks and strings -/

/-- The four characters that may stand between the parts of a document. -/
def isSpace (c : Char) : Bool := c == ' ' || c == '\x0a' || c == '\x0d' || c == '\x09'

def skipSpace (cs : List Char) : List Char := cs.dropWhile isSpace

def hexDigit? (c : Char) : Option Nat :=
  if '0' ≤ c ∧ c ≤ '9' then some (c.toNat - 48)
  else if 'a' ≤ c ∧ c ≤ 'f' then some (c.toNat - 87)
  else if 'A' ≤ c ∧ c ≤ 'F' then some (c.toNat - 55)
  else none

def hexUnit? (a b c d : Char) : Option Nat := do
  return ((← hexDigit? a) * 16 + (← hexDigit? b)) * 256 + (← hexDigit? c) * 16 + (← hexDigit? d)

/-- The character after a backslash, for the short escapes. -/
def shortEscape? : Char → Option Char
  | '\x22' => some '\x22'
  | '\x5c' => some '\x5c'
  | '/' => some '/'
  | 'b' => some '\x08'
  | 'f' => some '\x0c'
  | 'n' => some '\x0a'
  | 'r' => some '\x0d'
  | 't' => some '\x09'
  | _ => none

/-- A part of a string: a character, or a number given in hexadecimal. -/
inductive Piece
  | char (c : Char)
  | unit (n : Nat)

/-- Reads to the closing quote; the pieces come in reverse. -/
def scanString (pieces : List Piece) : List Char → Option (List Piece × List Char)
  | [] => none
  | '\x22' :: rest => some (pieces, rest)
  | '\x5c' :: 'u' :: a :: b :: c :: d :: rest =>
    match hexUnit? a b c d with
    | some n => scanString (.unit n :: pieces) rest
    | none => none
  | '\x5c' :: c :: rest =>
    match shortEscape? c with
    | some c => scanString (.char c :: pieces) rest
    | none => none
  | c :: rest => if c.toNat < 0x20 then none else scanString (.char c :: pieces) rest

def isHigh (n : Nat) : Bool := decide (0xd800 ≤ n) && decide (n < 0xdc00)

def isLow (n : Nat) : Bool := decide (0xdc00 ≤ n) && decide (n < 0xe000)

/-- The characters that pieces in reverse stand for; a surrogate counts only as half of a pair. -/
def joinPieces (acc : List Char) : List Piece → Option (List Char)
  | [] => some acc
  | .char c :: rest => joinPieces (c :: acc) rest
  | .unit n :: .unit m :: rest =>
    if isLow n ∧ isHigh m then
      joinPieces (Char.ofNat (0x10000 + (m - 0xd800) * 0x400 + (n - 0xdc00)) :: acc) rest
    else if isLow n ∨ isHigh n then none
    else joinPieces (Char.ofNat n :: acc) (.unit m :: rest)
  | .unit n :: rest =>
    if isLow n ∨ isHigh n then none else joinPieces (Char.ofNat n :: acc) rest

/-- A string after its opening quote: its value, if it has one, and the rest. -/
def readString? (cs : List Char) : Option (Option String × List Char) :=
  (scanString [] cs).map fun (pieces, rest) => ((joinPieces [] pieces).map String.ofList, rest)

/-! ## Values -/

/-- What is left after a word that must stand at the start. -/
def dropWord? (word cs : List Char) : Option (List Char) :=
  if word.isPrefixOf cs then some (cs.drop word.length) else none

/-- A leaf and the rest; there is no rest where the text is broken. -/
def readLeaf (cs : List Char) : Doc × Option (List Char) :=
  match cs with
  | '\x22' :: rest =>
    match readString? rest with
    | some (s, rest) => (.string s, some rest)
    | none => (.broken, none)
  | 'n' :: rest =>
    match dropWord? ['u', 'l', 'l'] rest with
    | some rest => (.null, some rest)
    | none => (.broken, none)
  | 't' :: rest =>
    match dropWord? ['r', 'u', 'e'] rest with
    | some rest => (.bool true, some rest)
    | none => (.broken, none)
  | 'f' :: rest =>
    match dropWord? ['a', 'l', 's', 'e'] rest with
    | some rest => (.bool false, some rest)
    | none => (.broken, none)
  | cs =>
    match Numeral.scan? cs with
    | some (p, rest) => (.number (Numeral.value? p), some rest)
    | none => (.broken, none)

mutual

/-- Reads a value. Every character is looked at on behalf of at most two units of `fuel`. -/
def readValue : Nat → List Char → Doc × Option (List Char)
  | 0, _ => (.broken, none)
  | fuel + 1, cs =>
    match skipSpace cs with
    | '[' :: rest =>
      match skipSpace rest with
      | ']' :: rest => (.array [] true, some rest)
      | rest =>
        let (items, rest) := readItems fuel rest
        (.array items rest.isSome, rest)
    | '\x7b' :: rest =>
      match skipSpace rest with
      | '\x7d' :: rest => (.object [] true, some rest)
      | rest =>
        let (members, rest) := readMembers fuel rest
        (.object members rest.isSome, rest)
    | cs => readLeaf cs

/-- Reads items up to the closing bracket. -/
def readItems : Nat → List Char → List Doc × Option (List Char)
  | 0, _ => ([], none)
  | fuel + 1, cs =>
    match readValue fuel cs with
    | (item, none) => ([item], none)
    | (item, some rest) =>
      match skipSpace rest with
      | ']' :: rest => ([item], some rest)
      | ',' :: rest =>
        match skipSpace rest with
        | ']' :: _ => ([item], none)
        | rest =>
          let (items, rest) := readItems fuel rest
          (item :: items, rest)
      | _ => ([item], none)

/-- Reads members up to the closing brace. -/
def readMembers : Nat → List Char → List (Option String × Doc) × Option (List Char)
  | 0, _ => ([], none)
  | fuel + 1, cs =>
    match skipSpace cs with
    | '\x22' :: rest =>
      match readString? rest with
      | none => ([], none)
      | some (key, rest) =>
        match skipSpace rest with
        | ':' :: rest =>
          match readValue fuel rest with
          | (value, none) => ([(key, value)], none)
          | (value, some rest) =>
            match skipSpace rest with
            | '\x7d' :: rest => ([(key, value)], some rest)
            | ',' :: rest =>
              let (members, rest) := readMembers fuel rest
              ((key, value) :: members, rest)
            | _ => ([(key, value)], none)
        | _ => ([(key, .broken)], none)
    | _ => ([], none)

end

/-- The tree of a text, and whether nothing but blanks follows the value. -/
def ofText (text : String) : Doc × Bool :=
  let cs := text.toList
  match readValue (2 * cs.length + 2) cs with
  | (doc, some rest) => (doc, (skipSpace rest).isEmpty)
  | (doc, none) => (doc, false)

/-! ## Trees of values -/

mutual

/-- The tree of a value. -/
def ofJson : Json → Doc
  | .null => .null
  | .bool b => .bool b
  | .number n => .number (some n)
  | .string s => .string (some s)
  | .array items => .array (ofItems items) true
  | .object members => .object (ofMembers members) true

def ofItems : List Json → List Doc
  | [] => []
  | j :: js => ofJson j :: ofItems js

def ofMembers : List (String × Json) → List (Option String × Doc)
  | [] => []
  | (k, j) :: ms => (some k, ofJson j) :: ofMembers ms

end

mutual

/-- Whether the text of the tree is well formed, whatever its leaves stand for. -/
def isWhole : Doc → Bool
  | .broken => false
  | .array items closed => allWhole items && closed
  | .object members closed => membersWhole members && closed
  | _ => true

def allWhole : List Doc → Bool
  | [] => true
  | d :: ds => isWhole d && allWhole ds

def membersWhole : List (Option String × Doc) → Bool
  | [] => true
  | (_, d) :: ms => isWhole d && membersWhole ms

end

mutual

/-- The value of a tree with at most `room` containers inside each other. Of members with one key
the last counts. -/
def toJson? (room : Nat) : Doc → Option Json
  | .broken => none
  | .null => some .null
  | .bool b => some (.bool b)
  | .number n => n.map .number
  | .string s => s.map .string
  | .array items closed =>
    if room = 0 ∨ !closed then none else (itemsToJson? (room - 1) items).map .array
  | .object members closed =>
    if room = 0 ∨ !closed then none
    else (membersToJson? (room - 1) members).map fun ms =>
      .object (ms.foldl (fun acc (k, v) => Json.insertMember k v acc) [])

def itemsToJson? (room : Nat) : List Doc → Option (List Json)
  | [] => some []
  | d :: ds => do return (← toJson? room d) :: (← itemsToJson? room ds)

def membersToJson? (room : Nat) : List (Option String × Doc) → Option (List (String × Json))
  | [] => some []
  | (k, d) :: ms => do return (← k, ← toJson? room d) :: (← membersToJson? room ms)

end

end Doc

end LaunchDesk
