import LaunchDesk.BotId
import LaunchDesk.Log
import LaunchDesk.Number.Decimal.Text
import LaunchDesk.Time.Stamp

/-!
# Trades and the wallet

A fill is the record of one executed buy or sell. It moves the wallet by its net amount, down for a
buy and up for a sell. The simulated wallet is a balance that may fall below zero.
-/

namespace LaunchDesk

/-! ## Trades -/

inductive Side
  | buy
  | sell
deriving DecidableEq, Repr

namespace Side

/-- The word for a side in documents and messages. -/
def text : Side → String
  | .buy => "BUY"
  | .sell => "SELL"

/-- The form shown in diagnostics. -/
def shown : Side → String
  | .buy => "Buy"
  | .sell => "Sell"

instance : Codec Side where
  encode s := .string s.text
  decode := Arm.decodeOneOf [("BUY", .plain .buy), ("SELL", .plain .sell)]

end Side

/-- One executed buy or sell. -/
structure Fill where
  id : Uuid
  side : Side
  mint : String
  tokenAmount : Decimal
  /-- The price of one token. -/
  price : Decimal
  /-- The amount before fees. -/
  grossAmount : Decimal
  fees : Decimal
  /-- What was spent or received in the end. -/
  netAmount : Decimal
  signature : String
  /-- What the strategy attached when it decided. -/
  metadata : Json
  executedAt : Stamp
deriving DecidableEq

namespace Fill

/-- The effect on the wallet: the net amount, with the other sign for a buy. -/
def balanceDelta (f : Fill) : Decimal :=
  match f.side with
  | .buy => f.netAmount.neg
  | .sell => f.netAmount

def record : Record Fill where
  tuple := _
  fields :=
    .cons inferInstance "id" .refused id <|
    .cons inferInstance "side" .refused side <|
    .cons inferInstance "mint" .refused mint <|
    .cons inferInstance "token_amount" .refused tokenAmount <|
    .cons inferInstance "price" .refused price <|
    .cons inferInstance "gross_amount" .refused grossAmount <|
    .cons inferInstance "fees" .refused fees <|
    .cons inferInstance "net_amount" .refused netAmount <|
    .cons inferInstance "signature" .refused signature <|
    .cons inferInstance "metadata" (.anywhere .null) metadata <|
    .cons inferInstance "executed_at" .refused executedAt .nil
  make | (a, b, c, d, e, f, g, h, i, j, k, ()) => ⟨a, b, c, d, e, f, g, h, i, j, k⟩

instance : Codec Fill := record.codec

end Fill

/-! ## The simulated wallet -/

/-- A wallet without a chain behind it. -/
structure SimulatedWallet where
  balance : Decimal
deriving DecidableEq

namespace SimulatedWallet

/-- Adds to the balance; an overflow leaves it as it was. -/
def applyDelta (w : SimulatedWallet) (amount : Decimal) :
    Except Decimal.Fault (SimulatedWallet × Log.Line) := do
  let balance ← w.balance.add amount
  return (⟨balance⟩,
    .debug "Simulated balance updated" [("delta", amount.text), ("balance", balance.text)])

end SimulatedWallet

end LaunchDesk
