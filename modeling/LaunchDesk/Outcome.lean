import LaunchDesk.History
import LaunchDesk.Position

/-!
# Outcomes

How a run ended: with a round trip of a buy and a sell, or without having bought. An outcome is
written as the fields of its kind with the kind's name under `type` in front. Reading one takes in
the whole text first, and only then looks at the fields.
-/

namespace LaunchDesk

/-- Why a run ended without a round trip. -/
inductive ExitReason
  | strategyExit
  | stopped
deriving DecidableEq, Repr

namespace ExitReason

def text : ExitReason → String
  | .strategyExit => "strategy_exit"
  | .stopped => "stopped"

/-- The form shown in diagnostics. -/
def shown : ExitReason → String
  | .strategyExit => "StrategyExit"
  | .stopped => "Stopped"

instance : Codec ExitReason where
  encode r := .string r.text
  decode := Arm.decodeOneOf [("strategy_exit", .plain .strategyExit), ("stopped", .plain .stopped)]

end ExitReason

/-- A buy and the sell that followed it. -/
structure RoundTrip where
  botId : BotId
  mint : String
  buy : Fill
  sell : Fill
  /-- What the sell brought less what the buy took. -/
  realizedPnl : Decimal
  sellReason : String
  history : List Entry
deriving DecidableEq

def RoundTrip.record : Record RoundTrip where
  tuple := _
  fields :=
    .cons inferInstance "bot_id" .refused botId <|
    .cons inferInstance "mint" .refused mint <|
    .cons inferInstance "buy" .refused buy <|
    .cons inferInstance "sell" .refused sell <|
    .cons inferInstance "realized_pnl" .refused realizedPnl <|
    .cons inferInstance "sell_reason" .refused sellReason <|
    .cons inferInstance "history" .refused history .nil
  make | (a, b, c, d, e, f, g, ()) => ⟨a, b, c, d, e, f, g⟩

instance : Codec RoundTrip := RoundTrip.record.codec

/-- A run that ended without a position. -/
structure Departure where
  botId : BotId
  mint : String
  reason : ExitReason
  history : List Entry
deriving DecidableEq

def Departure.record : Record Departure where
  tuple := _
  fields :=
    .cons inferInstance "bot_id" .refused botId <|
    .cons inferInstance "mint" .refused mint <|
    .cons inferInstance "reason" .refused reason <|
    .cons inferInstance "history" .refused history .nil
  make | (a, b, c, d, ()) => ⟨a, b, c, d⟩

instance : Codec Departure := Departure.record.codec

/-- The end of a run. -/
inductive Outcome
  | completed (trade : RoundTrip)
  | exited (departure : Departure)
deriving DecidableEq

namespace Outcome

/-- A round trip of `buy` and `sell`, with the difference of their net amounts as its result. -/
def ofFills (botId : BotId) (buy sell : Fill) (sellReason : String) (history : List Entry) :
    Except Decimal.Fault Outcome := do
  let pnl ← sell.netAmount.sub buy.netAmount
  return .completed
    { botId := botId, mint := buy.mint, buy := buy, sell := sell, realizedPnl := pnl,
      sellReason := sellReason, history := history }

def botId : Outcome → BotId
  | .completed t => t.botId
  | .exited d => d.botId

def mint : Outcome → String
  | .completed t => t.mint
  | .exited d => d.mint

def history : Outcome → List Entry
  | .completed t => t.history
  | .exited d => d.history

/-- The result of the round trip; zero when there was none. -/
def realizedPnl : Outcome → Decimal
  | .completed t => t.realizedPnl
  | .exited _ => .zero

def isCompleted : Outcome → Bool
  | .completed _ => true
  | .exited _ => false

/-! ## Documents -/

inductive Kind
  | completed
  | exited
deriving DecidableEq

def kinds : List (String × Kind) := [("completed", .completed), ("exited", .exited)]

/-- The kind is a plain name. -/
def decodeKind : Doc → Except Refusal Kind
  | .string (some s) =>
    match kinds.lookup s with
    | some k => .ok k
    | none => .error (.unknownVariant s (kinds.map (·.1)))
  | _ => .error .unreadable

def tagged (kind : String) : Json → Json
  | .object members => .object (("type", .string kind) :: members)
  | j => j

def encodeTagged : Outcome → Json
  | .completed t => tagged "completed" (encode t)
  | .exited d => tagged "exited" (encode d)

/-- Takes in members: the kind, which comes once, and the others in order. -/
def takeMembers (p : Place) (kind : Option Kind) (others : List (Option String × Doc)) :
    List (Option String × Doc) → Except Refusal (Option Kind × List (Option String × Doc))
  | [] => .ok (kind, others.reverse)
  | (none, _) :: _ => .error .unreadable
  | (some "type", d) :: ms =>
    match kind with
    | some _ => .error (.duplicateField "type")
    | none =>
      match decodeKind d with
      | .ok k => takeMembers p (some k) others ms
      | .error r => .error r
  | (some key, d) :: ms =>
    if p.held || (d.toJson? p.room).isSome then takeMembers p kind ((some key, d) :: others) ms
    else .error .unreadable

/-- Reads what has been taken in as a value of its kind. -/
def decodeKept (p : Place) (kind : Kind) (d : Doc) : Except Refusal Outcome :=
  let p := { p with held := true }
  match kind with
  | .completed => (decode p d).map .completed
  | .exited => (decode p d).map .exited

def decodeTagged : Decoder Outcome
  | p, .object members closed => do
    let p ← p.enter
    let (kind, others) ← takeMembers p none [] members
    Codec.closing closed
    match kind with
    | none => .error (.missingField "type")
    | some kind => decodeKept p kind (.object others true)
  | p, .array items closed => do
    let p ← p.enter
    match items with
    | [] => if closed then .error (.missingField "type") else .error .unreadable
    | d :: rest => do
      let kind ← decodeKind d
      if (rest.all fun d => p.held || (d.toJson? p.room).isSome) && closed then
        decodeKept p kind (.array rest true)
      else .error .unreadable
  | _, _ => .error .unreadable

instance : Codec Outcome := ⟨encodeTagged, decodeTagged⟩

end Outcome

/-- The summary that is stored with an outcome. -/
structure Report where
  botId : BotId
  mint : String
  ticks : UInt64
  durationMs : UInt64
  realizedPnl : Decimal
deriving DecidableEq

def Report.record : Record Report where
  tuple := _
  fields :=
    .cons inferInstance "bot_id" .refused botId <|
    .cons inferInstance "mint" .refused mint <|
    .cons inferInstance "ticks" .refused ticks <|
    .cons inferInstance "duration_ms" .refused durationMs <|
    .cons inferInstance "realized_pnl" .refused realizedPnl .nil
  make | (a, b, c, d, e, ()) => ⟨a, b, c, d, e⟩

instance : Codec Report := Report.record.codec

end LaunchDesk
