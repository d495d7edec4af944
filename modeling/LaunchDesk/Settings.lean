import LaunchDesk.Fault
import LaunchDesk.Number.Decimal.Text

/-!
# Settings

The settings of the desk by section, with their defaults, and the constraints that go beyond their
types.
-/

namespace LaunchDesk

/-- How one opportunity is traded. -/
structure TradingSettings where
  /-- The pause between ticks before a buy. -/
  buyPollIntervalMs : UInt64 := 1000
  /-- The pause between ticks with a position; divides the one before a buy. -/
  sellPollIntervalMs : UInt64 := 250
  /-- How long a run goes on watching after the strategy wants to leave. -/
  maxWaitAfterDecisionMs : UInt64 := 5000
  /-- What is spent on a buy. -/
  buyAmount : Decimal := .ofSmall 5 2
  slippageBps : UInt32 := 500
  /-- The most time for the sell after a fatal buy. -/
  salvageTimeoutMs : UInt64 := 10000
  /-- Whether balances are tracked here instead of by a real wallet. -/
  simulate : Bool := true
deriving DecidableEq

namespace TradingSettings

/-- What is wrong with trading settings. -/
inductive Problem
  | zeroInterval
  | intervalMismatch (buy sell : UInt64)
  | buyAmount
deriving DecidableEq, Repr

def Problem.message : Problem → String
  | .zeroInterval => "poll intervals must be greater than zero"
  | .intervalMismatch buy sell =>
    "buy_poll_interval_ms (" ++ toString buy.toNat ++
      ") must be a multiple of sell_poll_interval_ms (" ++ toString sell.toNat ++ ")"
  | .buyAmount => "buy_amount must be positive"

/-- The first constraint that does not hold. -/
def problem? (s : TradingSettings) : Option Problem :=
  if s.sellPollIntervalMs = 0 ∨ s.buyPollIntervalMs = 0 then some .zeroInterval
  else if s.buyPollIntervalMs % s.sellPollIntervalMs ≠ 0 then
    some (.intervalMismatch s.buyPollIntervalMs s.sellPollIntervalMs)
  else if s.buyAmount.le .zero then some .buyAmount
  else none

/-- Refuses settings with a problem. -/
def validate (s : TradingSettings) : Except Fault Unit :=
  match s.problem? with
  | none => .ok ()
  | some p => .error (.configuration p.message)

/-- The form shown in diagnostics. -/
def shown (s : TradingSettings) : String :=
  "TradingConfig \x7b buy_poll_interval_ms: " ++ toString s.buyPollIntervalMs.toNat ++
    ", sell_poll_interval_ms: " ++ toString s.sellPollIntervalMs.toNat ++
    ", max_wait_after_decision_ms: " ++ toString s.maxWaitAfterDecisionMs.toNat ++
    ", buy_amount: " ++ s.buyAmount.text ++ ", slippage_bps: " ++ toString s.slippageBps.toNat ++
    ", salvage_timeout_ms: " ++ toString s.salvageTimeoutMs.toNat ++ ", simulate: " ++
    toString s.simulate ++ " \x7d"

def record : Record TradingSettings :=
  let defaults : TradingSettings := {}
  { tuple := _
    fields :=
      .cons inferInstance "buy_poll_interval_ms" (.anywhere defaults.buyPollIntervalMs)
        buyPollIntervalMs <|
      .cons inferInstance "sell_poll_interval_ms" (.anywhere defaults.sellPollIntervalMs)
        sellPollIntervalMs <|
      .cons inferInstance "max_wait_after_decision_ms" (.anywhere defaults.maxWaitAfterDecisionMs)
        maxWaitAfterDecisionMs <|
      .cons inferInstance "buy_amount" (.anywhere defaults.buyAmount) buyAmount <|
      .cons inferInstance "slippage_bps" (.anywhere defaults.slippageBps) slippageBps <|
      .cons inferInstance "salvage_timeout_ms" (.anywhere defaults.salvageTimeoutMs)
        salvageTimeoutMs <|
      .cons inferInstance "simulate" (.anywhere defaults.simulate) simulate .nil
    make := fun (a, b, c, d, e, f, g, ()) => ⟨a, b, c, d, e, f, g⟩ }

instance : Codec TradingSettings := record.codec

end TradingSettings

/-- How many opportunities are worked on at once; unset for any number. -/
structure AdmissionSettings where
  maxConcurrent : Option UInt64 := none
deriving DecidableEq

def AdmissionSettings.record : Record AdmissionSettings where
  tuple := _
  fields := .cons inferInstance "max_concurrent" (.anywhere none) maxConcurrent .nil
  make | (a, ()) => ⟨a⟩

instance : Codec AdmissionSettings := AdmissionSettings.record.codec

/-- The limits for all runs together. -/
structure Limits where
  /-- The intake pauses while this many positions are open. -/
  maxOpenPositions : Option UInt32 := none
  /-- Everything stops after this many round trips. -/
  maxFullTrades : Option UInt32 := none
  /-- Everything stops when the balance falls to this. -/
  minWalletBalance : Option Decimal := none
deriving DecidableEq

namespace Limits

def record : Record Limits where
  tuple := _
  fields :=
    .cons inferInstance "max_open_positions" (.anywhere none) maxOpenPositions <|
    .cons inferInstance "max_full_trades" (.anywhere none) maxFullTrades <|
    .cons inferInstance "min_wallet_balance" (.anywhere none) minWalletBalance .nil
  make | (a, b, c, ()) => ⟨a, b, c⟩

instance : Codec Limits := record.codec

/-- Whether no limit is set. -/
def isEmpty (l : Limits) : Bool :=
  l.maxOpenPositions.isNone && l.maxFullTrades.isNone && l.minWalletBalance.isNone

end Limits

/-- Settings of the program as such. -/
structure GeneralSettings where
  logLevel : String := "info"
deriving DecidableEq

def GeneralSettings.record : Record GeneralSettings where
  tuple := _
  fields := .cons inferInstance "log_level" (.anywhere "info") logLevel .nil
  make | (a, ()) => ⟨a⟩

instance : Codec GeneralSettings := GeneralSettings.record.codec

/-- All settings. -/
structure Settings where
  trading : TradingSettings := {}
  admission : AdmissionSettings := {}
  limits : Limits := {}
  general : GeneralSettings := {}
deriving DecidableEq

namespace Settings

/-- Refuses settings that break a constraint. -/
def validate (s : Settings) : Except Fault Unit := s.trading.validate

def record : Record Settings where
  tuple := _
  fields :=
    .cons inferInstance "trading" (.anywhere {}) trading <|
    .cons inferInstance "admission" (.anywhere {}) admission <|
    .cons inferInstance "limits" (.anywhere {}) limits <|
    .cons inferInstance "settings" (.anywhere {}) general .nil
  make | (a, b, c, d, ()) => ⟨a, b, c, d⟩

instance : Codec Settings := record.codec

end Settings

end LaunchDesk
