import LaunchDesk.BotId
import LaunchDesk.Text

/-!
# Stop requests

A stop request has a reason and a scope: the intake alone, or every run but some that are excluded.
-/

namespace LaunchDesk

inductive StopReason
  | maxOpenPositions
  | minWalletBalance
  | maxFullTrades
  | insufficientFunds
  | shutdown
  | other (text : String)
deriving DecidableEq, Repr

namespace StopReason

def text : StopReason → String
  | .maxOpenPositions => "max_open_positions"
  | .minWalletBalance => "min_wallet_balance"
  | .maxFullTrades => "max_full_trades"
  | .insufficientFunds => "insufficient_funds"
  | .shutdown => "shutdown"
  | .other s => s

/-- The form shown in diagnostics. -/
def shown : StopReason → String
  | .maxOpenPositions => "MaxOpenPositions"
  | .minWalletBalance => "MinWalletBalance"
  | .maxFullTrades => "MaxFullTrades"
  | .insufficientFunds => "InsufficientFunds"
  | .shutdown => "Shutdown"
  | .other s => "Other(" ++ Text.quoted s ++ ")"

instance : Codec StopReason where
  encode
    | .other s => .object [("other", .string s)]
    | r => .string r.text
  decode := Arm.decodeOneOf
    [("max_open_positions", .plain .maxOpenPositions),
      ("min_wallet_balance", .plain .minWalletBalance),
      ("max_full_trades", .plain .maxFullTrades),
      ("insufficient_funds", .plain .insufficientFunds), ("shutdown", .plain .shutdown),
      ("other", .holding fun p d => (decode p d).map .other)]

end StopReason

/-- What a stop request is about. -/
inductive StopScope
  | intake
  | all (exclude : List BotId)
deriving DecidableEq

namespace StopScope

/-- The exclusions are the one field of a record. -/
def excludeFields : Fields (List BotId) (List BotId × Unit) :=
  .cons inferInstance "exclude" .refused id .nil

instance : Codec StopScope where
  encode
    | .intake => .string "intake"
    | .all exclude => .object [("all", .object (excludeFields.members exclude))]
  decode := Arm.decodeOneOf
    [("intake", .plain .intake),
      ("all", .holding fun p d => (excludeFields.decode p d).map fun (exclude, ()) => .all exclude)]

end StopScope

/-- A request to stop, published for everyone. -/
structure StopRequest where
  reason : StopReason
  scope : StopScope
deriving DecidableEq

namespace StopRequest

/-- Stops the intake only. -/
def intake (reason : StopReason) : StopRequest := ⟨reason, .intake⟩

/-- Stops every run. -/
def all (reason : StopReason) : StopRequest := ⟨reason, .all []⟩

/-- Leaves out one more run; a request for the intake alone stays as it is. -/
def excluding (r : StopRequest) (bot : BotId) : StopRequest :=
  match r.scope with
  | .intake => r
  | .all exclude => { r with scope := .all (exclude ++ [bot]) }

def isScoped (r : StopRequest) : Bool :=
  match r.scope with
  | .intake => true
  | .all _ => false

/-- Whether the run of `bot` has to stop. -/
def appliesTo (r : StopRequest) (bot : BotId) : Bool :=
  match r.scope with
  | .intake => false
  | .all exclude => !exclude.contains bot

def record : Record StopRequest where
  tuple := _
  fields :=
    .cons inferInstance "reason" .refused reason <|
    .cons inferInstance "scope" .refused scope .nil
  make | (a, b, ()) => ⟨a, b⟩

instance : Codec StopRequest := record.codec

end StopRequest

end LaunchDesk
