import LaunchDesk.Settings.Layers
import LaunchDesk.Text
import LaunchDesk.Toml.Document

/-!
# Where settings come from

Settings are loaded from a file with the environment laid over it, or from plain variables of the
environment alone. What is loaded has to hold together.
-/

namespace LaunchDesk

/-- The variables of the environment with their values. -/
abbrev Environment : Type := List (String × String)

namespace Settings

/-- Why settings could not be loaded. -/
inductive LoadFault
  /-- The file, or a value, cannot be read. -/
  | unreadable
  /-- The value of a variable cannot be read. -/
  | badVariable (name why : String)
  /-- A constraint does not hold. -/
  | problem (p : TradingSettings.Problem)
deriving DecidableEq

/-- The fault of the library. -/
def LoadFault.toFault : LoadFault → Fault
  | .unreadable => .configuration "a setting cannot be read"
  | .badVariable name why => .configuration (name ++ ": " ++ why)
  | .problem p => .configuration p.message

/-- Refuses settings that do not hold together. -/
def checked (s : Settings) : Except LoadFault Settings :=
  match s.trading.problem? with
  | none => .ok s
  | some p => .error (.problem p)

/-! ## Files -/

/-- Whether a file at this path is read as settings: its name ends so, with something before. -/
def isFilePath (path : String) : Bool :=
  let name := ((path.splitOn "/").getLast?).getD ""
  ".toml".toList.isSuffixOf name.toList && decide (5 < name.length)

/-- The text of the settings file at a path, if there is one. -/
def textAt? (files : String → Option String) (path : String) : Option String :=
  if isFilePath path then files path else none

/-- The layer of a file. -/
def fileLayer? (text : String) : Option (List (String × Given)) :=
  match Toml.read? text with
  | some (.table es) => some es
  | _ => none

/-- Settings from the text of a file, if there is one, and the environment. -/
def load (file : Option String) (environment : Environment) : Except LoadFault Settings :=
  match file.elim (some []) fileLayer? with
  | none => .error .unreadable
  | some layer =>
    match ofGiven? (.table (Given.layLayer (Given.layLayer [] layer)
      (Given.ofEnvironment environment))) with
    | none => .error .unreadable
    | some s => s.checked

/-! ## Variables -/

/-- The truth value of a variable. -/
def readFlag (s : String) : Except String Bool :=
  if s = "true" then .ok true
  else if s = "false" then .ok false
  else .error "provided string was not \x60true\x60 or \x60false\x60"

/-- The number below `limit` of a variable. -/
def readNumber (limit : Nat) (s : String) : Except String Nat :=
  (Whole.read limit s).mapError Whole.ReadFault.message

def readUInt64 (s : String) : Except String UInt64 :=
  (readNumber UInt64.size s).map UInt64.ofNat

def readUInt32 (s : String) : Except String UInt32 :=
  (readNumber UInt32.size s).map UInt32.ofNat

def readDecimal (s : String) : Except String Decimal :=
  (Decimal.read s).mapError Decimal.ReadFault.message

/-- The value of a variable, without blanks around it. -/
def fromVariable {α : Type} (environment : Environment) (read : String → Except String α)
    (name : String) : Except LoadFault (Option α) :=
  match environment.lookup name with
  | none => .ok none
  | some s =>
    match read (Text.trim s) with
    | .ok a => .ok (some a)
    | .error why => .error (.badVariable name why)

/-- Settings from variables alone. Those that are not set have their defaults. -/
def ofVariables (environment : Environment) : Except LoadFault Settings := do
  let defaults : TradingSettings := {}
  let buyPoll ← fromVariable environment readUInt64 "SNIPER_BUY_POLL_INTERVAL_MS"
  let sellPoll ← fromVariable environment readUInt64 "SNIPER_SELL_POLL_INTERVAL_MS"
  let maxWait ← fromVariable environment readUInt64 "SNIPER_MAX_WAIT_AFTER_DECISION_MS"
  let buyAmount ← fromVariable environment readDecimal "SNIPER_BUY_AMOUNT"
  let slippage ← fromVariable environment readUInt32 "SNIPER_SLIPPAGE_BPS"
  let salvage ← fromVariable environment readUInt64 "SNIPER_SALVAGE_TIMEOUT_MS"
  let simulate ← fromVariable environment readFlag "SNIPER_SIMULATE"
  let maxConcurrent ← fromVariable environment readUInt64 "SNIPER_MAX_CONCURRENT"
  let maxOpen ← fromVariable environment readUInt32 "SNIPER_MAX_OPEN_POSITIONS"
  let maxFull ← fromVariable environment readUInt32 "SNIPER_MAX_FULL_TRADES"
  let minBalance ← fromVariable environment readDecimal "SNIPER_MIN_WALLET_BALANCE"
  let settings : Settings :=
    { trading :=
        { buyPollIntervalMs := buyPoll.getD defaults.buyPollIntervalMs
          sellPollIntervalMs := sellPoll.getD defaults.sellPollIntervalMs
          maxWaitAfterDecisionMs := maxWait.getD defaults.maxWaitAfterDecisionMs
          buyAmount := buyAmount.getD defaults.buyAmount
          slippageBps := slippage.getD defaults.slippageBps
          salvageTimeoutMs := salvage.getD defaults.salvageTimeoutMs
          simulate := simulate.getD defaults.simulate }
      admission := { maxConcurrent := maxConcurrent }
      limits :=
        { maxOpenPositions := maxOpen, maxFullTrades := maxFull, minWalletBalance := minBalance }
      general := { logLevel := (environment.lookup "SNIPER_LOG_LEVEL").getD "info" } }
  settings.checked

end Settings

end LaunchDesk
