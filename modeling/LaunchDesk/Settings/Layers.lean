import LaunchDesk.Settings
import LaunchDesk.Settings.Given

/-!
# Layers of settings

Settings come in layers: a file, and above it the environment. A layer is laid over another key by
key, and in tables entry by entry. Keys are in lower case, and a key with dots leads into tables.
-/

namespace LaunchDesk

namespace Given

abbrev Table : Type := List (String × Given)

/-- Puts a value under a key, in place of the one that is there. -/
def put (es : Table) (key : String) (v : Given) : Table :=
  if es.any fun e => e.1 == key then es.map fun e => if e.1 == key then (key, v) else e
  else es ++ [(key, v)]

/-- The table under a key; an empty one in place of anything else. -/
def tableAt (es : Table) (key : String) : Table :=
  match es.lookup key with
  | some (.table sub) => sub
  | _ => []

mutual

/-- Lays a value over what is under a key. -/
def lay (es : Table) (key : String) : Given → Table
  | .table [] => if (es.lookup key).isSome then es else put es key (.table [])
  | .table sub => put es key (.table (layAll (tableAt es key) sub))
  | v => put es key v

/-- Lays the entries of a table over those of another. -/
def layAll (es : Table) : List (String × Given) → Table
  | [] => es
  | (key, v) :: rest => layAll (lay es (Text.lower key) v) rest

end

/-- Lays a value over what is at the end of a path. -/
def layAt (v : Given) : List String → Table → Table
  | [], es => es
  | [key], es => lay es key v
  | key :: path, es => put es key (.table (layAt v path (tableAt es key)))

/-- Characters of a key that leads into tables. -/
def isPathChar (c : Char) : Bool := c.isAlphanum || c == ' ' || c == '_' || c == '-'

/-- The path of a key; one with other characters, or with nothing between dots, stands for itself.
-/
def pathOf (key : String) : List String :=
  let key := Text.lower key
  let parts := key.splitOn "."
  if parts.all fun part => !part.isEmpty && part.toList.all isPathChar then parts else [key]

/-- Lays a layer over a table. -/
def layLayer (es : Table) (layer : List (String × Given)) : Table :=
  layer.foldl (fun es e => layAt e.2 (pathOf e.1) es) es

/-! ## The environment -/

/-- What the names of variables for settings start with. -/
def variableStart : String := "sniper__"

/-- Two underscores in a row are a dot. -/
def dotted : List Char → List Char
  | '_' :: '_' :: cs => '.' :: dotted cs
  | c :: cs => c :: dotted cs
  | [] => []

/-- The key of a variable, if it is one for settings. -/
def keyOf? (name : String) : Option String :=
  if variableStart.toList.isPrefixOf (Text.lower name).toList then
    some (String.ofList (dotted (name.toList.drop variableStart.length)))
  else none

/-- The layer of the environment. -/
def ofEnvironment (environment : List (String × String)) : List (String × Given) :=
  environment.filterMap fun (name, s) => (keyOf? name).map fun key => (key, ofVariable s)

/-! ## Reading -/

/-- A value that may be missing. -/
def orDefault {α : Type} (read : Given → Option α) (fallback : α) : Option Given → Option α
  | none => some fallback
  | some v => read v

/-- A value that may be missing and has no default. -/
def optional {α : Type} (read : Given → Option α) : Option Given → Option (Option α)
  | none => some none
  | some v => (read v).map some

end Given

open Given in
def TradingSettings.ofGiven? (v : Given) : Option TradingSettings := do
  let defaults : TradingSettings := {}
  match ← v.fields? ["buy_poll_interval_ms", "sell_poll_interval_ms", "max_wait_after_decision_ms",
    "buy_amount", "slippage_bps", "salvage_timeout_ms", "simulate"] with
  | [buyPoll, sellPoll, maxWait, buyAmount, slippage, salvage, simulate] =>
    return {
      buyPollIntervalMs := ← orDefault toUInt64? defaults.buyPollIntervalMs buyPoll
      sellPollIntervalMs := ← orDefault toUInt64? defaults.sellPollIntervalMs sellPoll
      maxWaitAfterDecisionMs := ← orDefault toUInt64? defaults.maxWaitAfterDecisionMs maxWait
      buyAmount := ← orDefault toDecimal? defaults.buyAmount buyAmount
      slippageBps := ← orDefault toUInt32? defaults.slippageBps slippage
      salvageTimeoutMs := ← orDefault toUInt64? defaults.salvageTimeoutMs salvage
      simulate := ← orDefault toBool? defaults.simulate simulate }
  | _ => none

open Given in
def AdmissionSettings.ofGiven? (v : Given) : Option AdmissionSettings := do
  match ← v.fields? ["max_concurrent"] with
  | [maxConcurrent] => return { maxConcurrent := ← optional toUInt64? maxConcurrent }
  | _ => none

open Given in
def Limits.ofGiven? (v : Given) : Option Limits := do
  match ← v.fields? ["max_open_positions", "max_full_trades", "min_wallet_balance"] with
  | [maxOpen, maxFull, minBalance] =>
    return {
      maxOpenPositions := ← optional toUInt32? maxOpen
      maxFullTrades := ← optional toUInt32? maxFull
      minWalletBalance := ← optional toDecimal? minBalance }
  | _ => none

open Given in
def GeneralSettings.ofGiven? (v : Given) : Option GeneralSettings := do
  match ← v.fields? ["log_level"] with
  | [logLevel] => return { logLevel := ← orDefault toText? "info" logLevel }
  | _ => none

open Given in
def Settings.ofGiven? (v : Given) : Option Settings := do
  match ← v.fields? ["trading", "admission", "limits", "settings"] with
  | [trading, admission, limits, general] =>
    return {
      trading := ← orDefault TradingSettings.ofGiven? {} trading
      admission := ← orDefault AdmissionSettings.ofGiven? {} admission
      limits := ← orDefault Limits.ofGiven? {} limits
      general := ← orDefault GeneralSettings.ofGiven? {} general }
  | _ => none

end LaunchDesk
