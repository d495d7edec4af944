import LaunchDesk.Fault
import LaunchDesk.Outcome
import LaunchDesk.Strategy

/-!
# Orders

What a run asks of the market, the exchange and the stores, and what they answer.
-/

namespace LaunchDesk

/-- An order to buy for a given amount. -/
structure BuyOrder where
  botId : BotId
  mint : String
  bondingCurve : String
  amount : Decimal
  slippageBps : UInt32
  metadata : Json
deriving DecidableEq

/-- An order to sell; without an amount, everything there is. -/
structure SellOrder where
  botId : BotId
  mint : String
  bondingCurve : String
  tokenAmount : Option Decimal
  slippageBps : UInt32
  reason : String
  metadata : Json
deriving DecidableEq

/-- What a run waits for. -/
inductive Request
  /-- A look at the market. -/
  | snapshot
  | buy (order : BuyOrder)
  | sell (order : SellOrder)
  /-- A sell that is given up after a time. -/
  | salvage (order : SellOrder) (limitMs : Nat)
  | insertPosition (position : Position)
  | closePosition (tradeId : Uuid) (closure : Closure)
  | insertOutcome (outcome : Outcome) (report : Report)
  /-- The time between two ticks. -/
  | rest (ms : Nat)
deriving DecidableEq

/-- What a run gets. -/
inductive Reply
  | snapshot (answer : Except Fault Snapshot)
  | order (answer : Except ExecutionFault Fill)
  /-- The time for a sell is over. -/
  | expired
  | stored (answer : Except Fault Unit)
  | rested

end LaunchDesk
