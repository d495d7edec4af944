import LaunchDesk.Bus
import LaunchDesk.Settings

/-!
# The overseer

The overseer counts open positions and round trips and follows the balance. At a limit it asks for a
stop: of the intake while as many positions are open as may be, of everything when the balance has
fallen to its floor or there have been enough round trips. When positions fall below their ceiling
again, it starts the intake that it had stopped for them.
-/

namespace LaunchDesk

structure Overseer where
  limits : Limits
  openPositions : Nat := 0
  completedTrades : Nat := 0
  balance : Decimal
  /-- The intake is stopped because of the ceiling for positions. -/
  pausedForPositions : Bool := false
  /-- Everything has been asked to stop. -/
  stopped : Bool := false
  /-- The stop for the balance has been sent. -/
  balanceStopSent : Bool := false
  /-- The stop for the number of round trips has been sent. -/
  fullTradesStopSent : Bool := false
deriving DecidableEq

namespace Overseer

/-- What the overseer does besides counting. -/
inductive Reaction
  | log (line : Log.Line)
  /-- Asks everyone to stop. -/
  | request (request : StopRequest)
  | startIntake
deriving DecidableEq

/-- As many positions are open as may be. -/
def atCeiling (o : Overseer) : Bool :=
  o.limits.maxOpenPositions.any fun max => decide (max.toNat ≤ o.openPositions)

/-- The balance has fallen to the floor. -/
def atFloor (o : Overseer) : Bool := o.limits.minWalletBalance.any fun floor => o.balance.le floor

/-- There have been as many round trips as there may be. -/
def isSated (o : Overseer) : Bool :=
  o.limits.maxFullTrades.any fun max => decide (max.toNat ≤ o.completedTrades)

/-- Counts a trade. -/
def count (o : Overseer) (fill : Fill) : Except Decimal.Fault Overseer := do
  let balance ← o.balance.add fill.balanceDelta
  return { o with
    balance := balance
    openPositions :=
      match fill.side with
      | .buy => o.openPositions + 1
      | .sell => o.openPositions - 1 }

/-- A buy has reached the ceiling, and the intake has not been stopped for it yet. -/
def pauses (o : Overseer) (side : Side) : Bool :=
  side = .buy && o.atCeiling && !o.pausedForPositions

/-- The intake was stopped for the ceiling, and the reason for that is gone. -/
def resumes (o : Overseer) : Bool := o.pausedForPositions && !o.atCeiling && !o.stopped

/-- The balance is at the floor for the first time. -/
def stopsForBalance (o : Overseer) : Bool := !o.balanceStopSent && o.atFloor

/-- What follows from a trade that has been counted. -/
def tradeReactions (o : Overseer) (bot : BotId) (side : Side) : List Reaction :=
  [.log (.info "Trade executed"
    [("bot_id", bot.text), ("side", side.text), ("open_positions", toString o.openPositions),
      ("balance", o.balance.text)])] ++
  (if o.pauses side then
    [.log (.info "Max open positions reached"
      [("open_positions", toString o.openPositions),
        ("max", Log.optional (fun n => toString n.toNat) o.limits.maxOpenPositions)]),
      .request (.intake .maxOpenPositions)]
  else []) ++
  (if o.resumes then
    [.log (.info "Open positions below ceiling, resuming intake"
      [("open_positions", toString o.openPositions)]), .startIntake]
  else []) ++
  (if o.stopsForBalance then
    [.log (.warn "Wallet balance at or below floor"
      [("balance", o.balance.text),
        ("floor", Log.optional Decimal.text o.limits.minWalletBalance)]),
      .request (.all .minWalletBalance)]
  else [])

/-- Remembers what is done about a trade that has been counted. -/
def afterTrade (o : Overseer) (side : Side) : Overseer :=
  { o with
    pausedForPositions := o.pauses side || (o.pausedForPositions && !o.resumes)
    balanceStopSent := o.balanceStopSent || o.stopsForBalance }

/-- Takes note of a trade. An overflow of the balance leaves everything as it was. -/
def onTrade (o : Overseer) (bot : BotId) (fill : Fill) :
    Except Decimal.Fault (Overseer × List Reaction) := do
  let o ← o.count fill
  return (o.afterTrade fill.side, o.tradeReactions bot fill.side)

/-- Enough round trips for the first time. -/
def stopsForTrades (o : Overseer) : Bool := !o.fullTradesStopSent && o.isSated

/-- Takes note of a finished run. -/
def onCycle (o : Overseer) (bot : BotId) (outcome : Outcome) : Overseer × List Reaction :=
  let o := { o with completedTrades := o.completedTrades + 1 }
  ({ o with fullTradesStopSent := o.fullTradesStopSent || o.stopsForTrades },
    [.log (.info "Trade cycle completed"
      [("bot_id", bot.text), ("pnl", outcome.realizedPnl.text),
        ("completed_trades", toString o.completedTrades)])] ++
    (if o.stopsForTrades then
      [.log (.info "Max full trades reached" [("completed_trades", toString o.completedTrades)]),
        .request (.all .maxFullTrades)]
    else []))

/-- Takes note of a stop request; the intake is then stopped by force. -/
def onStop (o : Overseer) (request : StopRequest) : Overseer × Log.Line :=
  (if request.isScoped then o else { o with stopped := true, pausedForPositions := false },
    .info "Pausing intake"
      [("reason", request.reason.text), ("scoped", toString request.isScoped)])

/-- The form of the counters in diagnostics. -/
def shownCounters (o : Overseer) : String :=
  "LifecycleCounters \x7b open_positions: " ++ toString o.openPositions ++
    ", completed_trades: " ++ toString o.completedTrades ++ ", balance: " ++ o.balance.text ++
    " \x7d"

end Overseer

end LaunchDesk
