import LaunchDesk.Position

/-!
# Strategies

A strategy looks at snapshots and positions and says when to buy, to sell and to leave. Thresholds
are the three usual rules for selling.
-/

namespace LaunchDesk

/-- Whether to sell, and the reason if the strategy gives one. -/
structure SellDecision where
  sell : Bool := false
  reason : Option String := none
deriving DecidableEq

namespace SellDecision

def hold : SellDecision := {}

def because (reason : String) : SellDecision := { sell := true, reason := some reason }

def reasonOr (d : SellDecision) (fallback : String) : String := d.reason.getD fallback

end SellDecision

/-- Percentages at which a position is sold; an unset one never is reached. -/
structure Thresholds where
  stopLossPercent : Option Decimal := none
  takeProfitPercent : Option Decimal := none
  trailingStopPercent : Option Decimal := none
deriving DecidableEq

namespace Thresholds

def withStopLoss (t : Thresholds) (percent : Decimal) : Thresholds :=
  { t with stopLossPercent := some percent }

def withTakeProfit (t : Thresholds) (percent : Decimal) : Thresholds :=
  { t with takeProfitPercent := some percent }

def withTrailingStop (t : Thresholds) (percent : Decimal) : Thresholds :=
  { t with trailingStopPercent := some percent }

/-- A rule of the thresholds. -/
inductive Rule
  | stopLoss
  | takeProfit
  | trailingStop
deriving DecidableEq, Repr

def Rule.text : Rule → String
  | .stopLoss => "stop_loss"
  | .takeProfit => "take_profit"
  | .trailingStop => "trailing_stop"

/-- The loss has reached the stop. -/
def stopLossReached (position : Position) (change : Decimal) : Bool :=
  position.stopLossPercent.any fun percent => change.le percent.neg

/-- The gain has reached the target. -/
def takeProfitReached (position : Position) (change : Decimal) : Bool :=
  position.takeProfitPercent.any fun percent => percent.le change

/-- The fall from the peak has reached the stop; only for a position that has been in profit. -/
def trailingStopReached (position : Position) (price : Decimal) : Except Decimal.Fault Bool :=
  match position.trailingStopPercent with
  | none => .ok false
  | some percent =>
    if position.entryPrice.lt position.peakPrice then
      (position.drawdownPercent price).map fun drawdown => percent.le drawdown
    else .ok false

/-- The first rule by which `position` is to be sold at `price`. -/
def triggered (position : Position) (price : Decimal) : Except Decimal.Fault (Option Rule) := do
  let change ← position.changePercent price
  if stopLossReached position change then return some .stopLoss
  if takeProfitReached position change then return some .takeProfit
  if ← trailingStopReached position price then return some .trailingStop
  return none

def record : Record Thresholds where
  tuple := _
  fields :=
    .cons inferInstance "stop_loss_percent" (.inObject none) stopLossPercent <|
    .cons inferInstance "take_profit_percent" (.inObject none) takeProfitPercent <|
    .cons inferInstance "trailing_stop_percent" (.inObject none) trailingStopPercent .nil
  make | (a, b, c, ()) => ⟨a, b, c⟩

instance : Codec Thresholds := record.codec

end Thresholds

/-- The decisions of a strategy. Only the one to sell computes with decimals, and so can overflow.
-/
structure Strategy where
  name : String
  shouldBuy : Snapshot → Bool
  shouldSell : Position → Snapshot → Except Decimal.Fault SellDecision
  shouldExit : Option Position → Snapshot → Bool
  /-- What a position gets when it is bought. -/
  exitThresholds : Snapshot → Thresholds := fun _ => {}
  /-- What is attached to orders. -/
  metadata : Json := .object [("strategy", .string name)]

end LaunchDesk
