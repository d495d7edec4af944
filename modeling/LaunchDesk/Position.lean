import LaunchDesk.Market
import LaunchDesk.Wallet

/-!
# Positions

A position is what a buy opened and a sell will close. It remembers the highest price seen while it
is open; gains are measured against the entry price and drawdowns against that peak.
-/

namespace LaunchDesk

inductive PositionStatus
  | isOpen
  | closed
deriving DecidableEq, Repr

namespace PositionStatus

def text : PositionStatus → String
  | .isOpen => "open"
  | .closed => "closed"

instance : Codec PositionStatus where
  encode s := .string s.text
  decode := Arm.decodeOneOf [("open", .plain .isOpen), ("closed", .plain .closed)]

end PositionStatus

/-- What a run holds between its buy and its sell. -/
structure Position where
  /-- The identifier of the buy. -/
  tradeId : Uuid
  botId : BotId
  mint : String
  entryPrice : Decimal
  tokenAmount : Decimal
  /-- What was spent to open it, with fees. -/
  cost : Decimal
  stopLossPercent : Option Decimal
  takeProfitPercent : Option Decimal
  trailingStopPercent : Option Decimal
  /-- The highest price seen while open. -/
  peakPrice : Decimal
  status : PositionStatus
  openedAt : Stamp
  closedAt : Option Stamp
deriving DecidableEq

namespace Position

/-- `part / whole` in percent. -/
def percentOf (part whole : Decimal) : Except Decimal.Fault Decimal := do
  let ratio ← part.div whole
  ratio.mul .hundred

/-- The change of `price` against the entry price, in percent; none for an entry at zero. -/
def changePercent (p : Position) (price : Decimal) : Except Decimal.Fault Decimal :=
  if p.entryPrice.isZero then .ok .zero
  else do
    let change ← price.sub p.entryPrice
    percentOf change p.entryPrice

/-- The fall of `price` from the peak, in percent; none for a peak at zero. -/
def drawdownPercent (p : Position) (price : Decimal) : Except Decimal.Fault Decimal :=
  if p.peakPrice.isZero then .ok .zero
  else do
    let fall ← p.peakPrice.sub price
    percentOf fall p.peakPrice

/-- Takes note of a price: only a higher one than before changes the peak. -/
def observe (p : Position) (price : Decimal) : Position :=
  if p.peakPrice.lt price then { p with peakPrice := price } else p

def isOpen (p : Position) : Bool := p.status = .isOpen

def record : Record Position where
  tuple := _
  fields :=
    .cons inferInstance "trade_id" .refused tradeId <|
    .cons inferInstance "bot_id" .refused botId <|
    .cons inferInstance "mint" .refused mint <|
    .cons inferInstance "entry_price" .refused entryPrice <|
    .cons inferInstance "token_amount" .refused tokenAmount <|
    .cons inferInstance "cost" .refused cost <|
    .cons inferInstance "stop_loss_percent" (.inObject none) stopLossPercent <|
    .cons inferInstance "take_profit_percent" (.inObject none) takeProfitPercent <|
    .cons inferInstance "trailing_stop_percent" (.inObject none) trailingStopPercent <|
    .cons inferInstance "peak_price" .refused peakPrice <|
    .cons inferInstance "status" .refused status <|
    .cons inferInstance "opened_at" .refused openedAt <|
    .cons inferInstance "closed_at" (.inObject none) closedAt .nil
  make
    | (a, b, c, d, e, f, g, h, i, j, k, l, m, ()) => ⟨a, b, c, d, e, f, g, h, i, j, k, l, m⟩

instance : Codec Position := record.codec

end Position

/-- What is noted when a position closes. -/
structure Closure where
  exitPrice : Decimal
  realizedPnl : Decimal
  reason : String
  signature : String
  closedAt : Stamp
deriving DecidableEq

def Closure.record : Record Closure where
  tuple := _
  fields :=
    .cons inferInstance "exit_price" .refused exitPrice <|
    .cons inferInstance "realized_pnl" .refused realizedPnl <|
    .cons inferInstance "reason" .refused reason <|
    .cons inferInstance "signature" .refused signature <|
    .cons inferInstance "closed_at" .refused closedAt .nil
  make | (a, b, c, d, e, ()) => ⟨a, b, c, d, e⟩

instance : Codec Closure := Closure.record.codec

end LaunchDesk
