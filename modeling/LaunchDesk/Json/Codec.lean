import LaunchDesk.Json.Doc
import LaunchDesk.Json.Writer
import LaunchDesk.Number.Decimal.Text

/-!
# Typed values in documents

A codec says how values of a type are written and how they are read. Reading walks the tree from
left to right and stops at the first problem. A record is written as an object; it is read from an
object, where members with other names are skipped, or from an array with its fields in order.
-/

namespace LaunchDesk

/-- Why a document is not a value of a type. -/
inductive Refusal
  | unreadable
  | missingField (name : String)
  | duplicateField (name : String)
  | unknownVariant (name : String) (expected : List String)
deriving DecidableEq, Repr

namespace Refusal

def ticked (s : String) : String := "`" ++ s ++ "`"

/-- The names that are expected, in words. -/
def alternatives : List String → String
  | [] => "there are no variants"
  | [a] => "expected " ++ ticked a
  | [a, b] => "expected " ++ ticked a ++ " or " ++ ticked b
  | names => "expected one of " ++ ", ".intercalate (names.map ticked)

/-- The text of a refusal that has one of its own. -/
def message? : Refusal → Option String
  | .unreadable => none
  | .missingField name => some ("missing field " ++ ticked name)
  | .duplicateField name => some ("duplicate field " ++ ticked name)
  | .unknownVariant name expected =>
    some ("unknown variant " ++ ticked name ++ ", " ++ alternatives expected)

end Refusal

/-- Where a value stands: how many containers may still be opened, and whether the text around it
has been read to its end before. A value that is held was checked for form and depth at that
time. -/
structure Place where
  room : Nat := 127
  held : Bool := false

/-- The place inside a container. -/
def Place.enter (p : Place) : Except Refusal Place :=
  if p.held then .ok p
  else if p.room = 0 then .error .unreadable
  else .ok { p with room := p.room - 1 }

/-- A reader of typed values. -/
abbrev Decoder (α : Type) : Type := Place → Doc → Except Refusal α

class Codec (α : Type) where
  encode : α → Json
  decode : Decoder α

export Codec (encode decode)

namespace Codec

variable {α β : Type}

/-- The value that `text` holds, and nothing else after it. -/
def read [Codec α] (text : String) : Except Refusal α :=
  let (doc, ended) := Doc.ofText text
  match decode (α := α) {} doc with
  | .error r => .error r
  | .ok a => if ended then .ok a else .error .unreadable

/-- The value that a document value holds. -/
def ofJson [Codec α] (j : Json) : Except Refusal α := decode { held := true } (Doc.ofJson j)

/-! ## Plain values -/

instance : Codec Bool where
  encode := .bool
  decode
    | _, .bool b => .ok b
    | _, _ => .error .unreadable

instance : Codec String where
  encode := .string
  decode
    | _, .string (some s) => .ok s
    | _, _ => .error .unreadable

/-- The natural number of a leaf, if it is below `limit`. -/
def natBelow (limit : Nat) : Doc → Except Refusal Nat
  | .number (some (.whole i _ _)) =>
    if 0 ≤ i ∧ i.toNat < limit then .ok i.toNat else .error .unreadable
  | _ => .error .unreadable

instance : Codec UInt64 where
  encode n := .nat n.toNat
  decode _ d := (natBelow UInt64.size d).map UInt64.ofNat

instance : Codec UInt32 where
  encode n := .nat n.toNat
  decode _ d := (natBelow UInt32.size d).map UInt32.ofNat

/-- A decimal is written as a string; numbers are read as well, a floating-point one through its
plain text. -/
instance : Codec Decimal where
  encode d := .string d.text
  decode
    | _, .string (some s) =>
      match Decimal.read? s with
      | some d => .ok d
      | none => .error .unreadable
    | _, .number (some (.whole i _ _)) =>
      match Decimal.ofInt? i with
      | some d => .ok d
      | none => .error .unreadable
    | _, .number (some (.real x)) =>
      match Decimal.read? x.plainText with
      | some d => .ok d
      | none => .error .unreadable
    | _, _ => .error .unreadable

instance : Codec Json where
  encode j := j
  decode p d :=
    match d.toJson? (if p.held then 1000000 else p.room) with
    | some j => .ok j
    | none => .error .unreadable

instance [Codec α] : Codec (Option α) where
  encode
    | none => .null
    | some a => encode a
  decode
    | _, .null => .ok none
    | p, d => (decode p d).map some

/-! ## Lists -/

def decodeItems [Codec α] (p : Place) : List Doc → Except Refusal (List α)
  | [] => .ok []
  | d :: ds => do
    let a ← decode p d
    let as ← decodeItems p ds
    return a :: as

/-- What stands when all of a container has been read. -/
def closing (closed : Bool) : Except Refusal Unit :=
  if closed then .ok () else .error .unreadable

instance [Codec α] : Codec (List α) where
  encode as := .array (as.map encode)
  decode
    | p, .array items closed => do
      let p ← p.enter
      let as ← decodeItems p items
      closing closed
      return as
    | _, _ => .error .unreadable

end Codec

/-! ## Records -/

/-- Whether a field may be absent: from an object only, or also from the end of an array. -/
inductive Absence (α : Type)
  | refused
  | inObject (value : α)
  | anywhere (value : α)

namespace Absence

variable {α : Type}

def fromObject (name : String) : Absence α → Except Refusal α
  | .refused => .error (.missingField name)
  | .inObject a => .ok a
  | .anywhere a => .ok a

def fromArray : Absence α → Except Refusal α
  | .anywhere a => .ok a
  | _ => .error .unreadable

end Absence

/-- The fields of a record of type `σ` in order; `τ` is the type of their values together. -/
inductive Fields (σ : Type) : Type → Type 1
  | nil : Fields σ Unit
  | cons {α τ : Type} (codec : Codec α) (name : String) (absent : Absence α) (get : σ → α)
      (rest : Fields σ τ) : Fields σ (α × τ)

namespace Fields

variable {σ τ : Type}

/-- The members that a record is written as. -/
def members (s : σ) : {τ : Type} → Fields σ τ → List (String × Json)
  | _, .nil => []
  | _, .cons codec name _ get rest => (name, codec.encode (get s)) :: rest.members s

/-- The values of the fields of `s`. -/
def values (s : σ) : {τ : Type} → Fields σ τ → τ
  | _, .nil => ()
  | _, .cons _ _ _ get rest => (get s, rest.values s)

/-- The values read so far. -/
def Slots : {τ : Type} → Fields σ τ → Type
  | _, .nil => Unit
  | _, .cons (α := α) _ _ _ _ rest => Option α × rest.Slots

def noSlots : {τ : Type} → (fs : Fields σ τ) → fs.Slots
  | _, .nil => ()
  | _, .cons _ _ _ _ rest => (none, rest.noSlots)

/-- Takes one member of an object. -/
def fill (p : Place) (key : String) (d : Doc) :
    {τ : Type} → (fs : Fields σ τ) → fs.Slots → Except Refusal fs.Slots
  | _, .nil, slots => if p.held || d.isWhole then .ok slots else .error .unreadable
  | _, .cons (α := α) codec name _ _ rest, slots =>
    let (slot, others) : Option α × rest.Slots := slots
    if key = name then
      match slot with
      | some _ => .error (.duplicateField name)
      | none => (codec.decode p d).map fun a => (some a, others)
    else (rest.fill p key d others).map fun others => (slot, others)

def fillAll (p : Place) (fs : Fields σ τ) :
    fs.Slots → List (Option String × Doc) → Except Refusal fs.Slots
  | slots, [] => .ok slots
  | _, (none, _) :: _ => .error .unreadable
  | slots, (some key, d) :: ms =>
    match fs.fill p key d slots with
    | .ok slots => fillAll p fs slots ms
    | .error r => .error r

/-- The values at the end of an object; an absent field is noticed in the order of the record. -/
def finish : {τ : Type} → (fs : Fields σ τ) → fs.Slots → Except Refusal τ
  | _, .nil, _ => .ok ()
  | _, .cons (α := α) _ name absent _ rest, slots => do
    let (slot, others) : Option α × rest.Slots := slots
    let a ← match slot with
      | some a => .ok a
      | none => absent.fromObject name
    let as ← rest.finish others
    return (a, as)

/-- The values in the order of the record, and the items after them. -/
def decodeItems (p : Place) :
    {τ : Type} → Fields σ τ → List Doc → Bool → Except Refusal (τ × List Doc)
  | _, .nil, items, _ => .ok ((), items)
  | _, .cons codec _ absent _ rest, items, closed => do
    let (a, items) ← match items with
      | d :: ds => (codec.decode p d).map fun a => (a, ds)
      | [] => if closed then absent.fromArray.map fun a => (a, []) else .error .unreadable
    let (as, items) ← rest.decodeItems p items closed
    return ((a, as), items)

def decode (fs : Fields σ τ) : Decoder τ
  | p, .object members closed => do
    let p ← p.enter
    let slots ← fs.fillAll p fs.noSlots members
    Codec.closing closed
    fs.finish slots
  | p, .array items closed => do
    let p ← p.enter
    let (as, items) ← fs.decodeItems p items closed
    Codec.closing (closed && items.isEmpty)
    return as
  | _, _ => .error .unreadable

end Fields

/-- How a record is written and read, field by field. -/
structure Record (σ : Type) where
  tuple : Type
  fields : Fields σ tuple
  make : tuple → σ

namespace Record

variable {σ : Type}

def encode (r : Record σ) (s : σ) : Json := .object (r.fields.members s)

def decode (r : Record σ) : Decoder σ := fun p d => (r.fields.decode p d).map r.make

@[reducible] def codec (r : Record σ) : Codec σ := ⟨r.encode, r.decode⟩

end Record

/-! ## Alternatives -/

/-- What stands behind the name of an alternative: nothing, or a value. -/
inductive Arm (α : Type)
  | plain (value : α)
  | holding (decode : Decoder α)

namespace Arm

variable {α : Type}

/-- What is read as nothing. -/
def isNothing (p : Place) : Doc → Bool
  | .null => true
  | .object [] closed => p.held && closed
  | _ => false

/-- Reads a name alone, or an object whose one member has the name for its key. -/
def decodeOneOf (arms : List (String × Arm α)) : Decoder α
  | _, .string (some s) =>
    match arms.lookup s with
    | none => .error (.unknownVariant s (arms.map (·.1)))
    | some (.plain a) => .ok a
    | some (.holding _) => .error .unreadable
  | p, .object members closed => do
    let p ← p.enter
    match members with
    | (some s, d) :: rest =>
      if p.held && !rest.isEmpty then .error .unreadable
      else
        let a ← match arms.lookup s with
          | none => .error (.unknownVariant s (arms.map (·.1)))
          | some (.plain a) => if isNothing p d then .ok a else .error .unreadable
          | some (.holding f) => f p d
        Codec.closing (closed && rest.isEmpty)
        return a
    | _ => .error .unreadable
  | _, _ => .error .unreadable

end Arm

end LaunchDesk
