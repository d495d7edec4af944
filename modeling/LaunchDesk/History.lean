import LaunchDesk.Market

/-!
# Histories

What happened in a run, tick by tick. An action is written as an object with its name under `action`
and what belongs to it under `detail`, in either order.
-/

namespace LaunchDesk

/-- What happened on a tick. -/
inductive Action
  | observed
  | buySignal
  | bought
  | buyFailed (why : String)
  | sellSignal (reason : String)
  | sellFailed (why : String)
  | sold
  | exitSignal
  | exitIgnored
  | cancelled
  | snapshotFailed (why : String)
deriving DecidableEq, Repr

namespace Action

/-- The name of an action and the text that belongs to it. -/
def parts : Action → String × Option String
  | .observed => ("observed", none)
  | .buySignal => ("buy_signal", none)
  | .bought => ("bought", none)
  | .buyFailed s => ("buy_failed", some s)
  | .sellSignal s => ("sell_signal", some s)
  | .sellFailed s => ("sell_failed", some s)
  | .sold => ("sold", none)
  | .exitSignal => ("exit_signal", none)
  | .exitIgnored => ("exit_ignored", none)
  | .cancelled => ("cancelled", none)
  | .snapshotFailed s => ("snapshot_failed", some s)

/-- An action whose name has been read: all of it, or what makes one of a text. -/
inductive Named
  | alone (action : Action)
  | needing (make : String → Action)

def named : List (String × Named) :=
  [("observed", .alone .observed), ("buy_signal", .alone .buySignal), ("bought", .alone .bought),
    ("buy_failed", .needing .buyFailed), ("sell_signal", .needing .sellSignal),
    ("sell_failed", .needing .sellFailed), ("sold", .alone .sold),
    ("exit_signal", .alone .exitSignal), ("exit_ignored", .alone .exitIgnored),
    ("cancelled", .alone .cancelled), ("snapshot_failed", .needing .snapshotFailed)]

def encodeParts (a : Action) : Json :=
  match a.parts with
  | (name, none) => .object [("action", .string name)]
  | (name, some s) => .object [("action", .string name), ("detail", .string s)]

/-- Reads the name. -/
def decodeName : Decoder Named :=
  Arm.decodeOneOf (named.map fun (name, n) => (name, .plain n))

/-- Reads what belongs to a name: nothing, or a text. -/
def decodeDetail (n : Named) : Decoder Action
  | p, d =>
    match n, d with
    | .alone a, .null => .ok a
    | .alone _, _ => .error .unreadable
    | .needing make, d => (decode p d).map make

/-- The action of a name with nothing behind it. -/
def ofName : Named → Except Refusal Action
  | .alone a => .ok a
  | .needing _ => .error (.missingField "detail")

/-- How far an object has been read. -/
inductive Progress
  | start
  | name (n : Named)
  | detail (d : Doc)
  | both (a : Action)

/-- Takes one member. A text that comes before its name is kept, after a check of its form. -/
def takeMember (p : Place) (key : String) (d : Doc) : Progress → Except Refusal Progress
  | progress =>
    match progress, key with
    | .start, "action" => (decodeName p d).map .name
    | .start, "detail" =>
      if p.held || (d.toJson? p.room).isSome then .ok (.detail d) else .error .unreadable
    | .name _, "action" => .error (.duplicateField "action")
    | .name n, "detail" => (decodeDetail n p d).map .both
    | .detail d', "action" => do
      let n ← decodeName p d
      let a ← decodeDetail n { p with held := true } d'
      return .both a
    | .detail _, "detail" => .error (.duplicateField "detail")
    | .both _, "action" => .error (.duplicateField "action")
    | .both _, "detail" => .error (.duplicateField "detail")
    | progress, _ => if p.held || d.isWhole then .ok progress else .error .unreadable

def takeMembers (p : Place) :
    Progress → List (Option String × Doc) → Except Refusal Progress
  | progress, [] => .ok progress
  | _, (none, _) :: _ => .error .unreadable
  | progress, (some key, d) :: ms =>
    match takeMember p key d progress with
    | .ok progress => takeMembers p progress ms
    | .error r => .error r

def finish : Progress → Except Refusal Action
  | .start => .error (.missingField "action")
  | .name n => ofName n
  | .detail _ => .error (.missingField "action")
  | .both a => .ok a

/-- Reads an object, or an array of the name and what belongs to it. -/
def decodeParts : Decoder Action
  | p, .object members closed => do
    let p ← p.enter
    let progress ← takeMembers p .start members
    Codec.closing closed
    finish progress
  | p, .array items closed => do
    let p ← p.enter
    match items with
    | name :: detail :: rest => do
      let n ← decodeName p name
      let a ← decodeDetail n p detail
      Codec.closing (closed && rest.isEmpty)
      return a
    | [name] => do
      let _ ← decodeName p name
      .error .unreadable
    | [] => .error .unreadable
  | _, _ => .error .unreadable

instance : Codec Action := ⟨encodeParts, decodeParts⟩

end Action

/-- One entry of a history. -/
structure Entry where
  tick : UInt64
  time : Stamp
  snapshot : Option Snapshot
  action : Action
deriving DecidableEq

def Entry.record : Record Entry where
  tuple := _
  fields :=
    .cons inferInstance "tick" .refused tick <|
    .cons inferInstance "at" .refused time <|
    .cons inferInstance "snapshot" (.inObject none) snapshot <|
    .cons inferInstance "action" .refused action .nil
  make | (a, b, c, d, ()) => ⟨a, b, c, d⟩

instance : Codec Entry := Entry.record.codec

end LaunchDesk
