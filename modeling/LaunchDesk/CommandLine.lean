import LaunchDesk.Log.Filter
import LaunchDesk.Settings.Variables

/-!
# The command line

The program loads the settings, logs what they are, and then either ends or waits. The level of the
log comes from the environment's filter, else from the command line, else from the settings.
-/

namespace LaunchDesk.CommandLine

/-! ## Arguments -/

structure Arguments where
  /-- The path of the settings file. -/
  config : Option String := none
  logLevel : Option String := none
  /-- Whether to end when the settings are logged. -/
  check : Bool := false
deriving DecidableEq

/-- Why the arguments say nothing about a run. -/
inductive Refusal
  /-- They are wrong. -/
  | usage
  /-- They ask for a description of the program. -/
  | description
deriving DecidableEq

/-- An option that has a value. -/
inductive Valued
  | config
  | logLevel

/-- Sets an option that is not set. -/
def Arguments.set (a : Arguments) (o : Valued) (value : String) : Except Refusal Arguments :=
  match o, a.config, a.logLevel with
  | .config, none, _ => .ok { a with config := some value }
  | .logLevel, _, none => .ok { a with logLevel := some value }
  | _, _, _ => .error .usage

/-- Whether a text can be the value of the option before it. -/
def isValue (s : String) : Bool := s = "-" || s.toList.head? != some '-'

/-- One argument: whole in itself, or in need of a value. -/
inductive Argument
  | check
  | help
  | value (o : Valued) (value : String)
  | awaiting (o : Valued)
  /-- Nothing but positions follow. -/
  | separator
  | wrong

/-- The text behind a start that is there. -/
def behind? (start s : String) : Option String :=
  if start.toList.isPrefixOf s.toList then some (String.ofList (s.toList.drop start.length))
  else none

/-- The value of a short option, with or without `=`. -/
def shortValue (s : String) : String := (behind? "=" s).getD s

def Argument.ofText (s : String) : Argument :=
  if s = "--check" then .check
  else if s = "--help" ∨ s = "--version" then .help
  else if s = "--config" ∨ s = "-c" then .awaiting .config
  else if s = "--log-level" then .awaiting .logLevel
  else if s = "--" then .separator
  else
    match behind? "--config=" s, behind? "--log-level=" s, behind? "-c" s with
    | some v, _, _ => .value .config v
    | _, some v, _ => .value .logLevel v
    | _, _, some v => .value .config (shortValue v)
    | _, _, _ =>
      if ["-h", "-V"].any fun o => o.toList.isPrefixOf s.toList then .help else .wrong

/-- Reads arguments one after the other. -/
def read (a : Arguments) : List String → Except Refusal Arguments
  | [] => .ok a
  | s :: rest =>
    match Argument.ofText s with
    | .check => if a.check then .error .usage else read { a with check := true } rest
    | .help => .error .description
    | .value o v =>
      match a.set o v with
      | .ok a => read a rest
      | .error r => .error r
    | .awaiting o =>
      match rest with
      | v :: rest =>
        if isValue v then
          match a.set o v with
          | .ok a => read a rest
          | .error r => .error r
        else .error .usage
      | [] => .error .usage
    | .separator => if rest.isEmpty then .ok a else .error .usage
    | .wrong => .error .usage

/-! ## The program -/

/-- The name under which the program logs. -/
def target : String := "pump_sniper"

/-- How the program ends, or goes on to wait. -/
structure Outcome where
  exit : Nat
  lines : List Log.Line := []
  fault : Option Settings.LoadFault := none
  waits : Bool := false

def tradingLine (s : TradingSettings) : Log.Line :=
  .info "Trading configuration"
    [("buy_poll_interval_ms", toString s.buyPollIntervalMs.toNat),
      ("sell_poll_interval_ms", toString s.sellPollIntervalMs.toNat),
      ("max_wait_after_decision_ms", toString s.maxWaitAfterDecisionMs.toNat),
      ("buy_amount", s.buyAmount.text), ("slippage_bps", toString s.slippageBps.toNat),
      ("simulate", toString s.simulate)]

def limitsLine (s : Settings) : Log.Line :=
  .info "Risk limits"
    [("max_concurrent", Log.optional (fun n => toString n.toNat) s.admission.maxConcurrent),
      ("max_open_positions", Log.optional (fun n => toString n.toNat) s.limits.maxOpenPositions),
      ("max_full_trades", Log.optional (fun n => toString n.toNat) s.limits.maxFullTrades),
      ("min_wallet_balance", Log.optional Decimal.text s.limits.minWalletBalance)]

/-- Everything that is said about settings. -/
def report (path : String) (s : Settings) : List Log.Line :=
  [.info "Starting PumpSniper", .info ("Configuration file: " ++ path), tradingLine s.trading,
    limitsLine s] ++
  if s.limits.isEmpty && s.admission.maxConcurrent.isNone then
    [.warn "No limits configured; intake and exposure are unbounded"]
  else []

/-- The filter of the environment, or else the level asked for; another word stands for `info`. -/
def filter (environment : Environment) (level : String) : Log.Filter :=
  match environment.lookup "RUST_LOG" with
  | some s => Log.Filter.ofText s
  | none => Log.Filter.ofLevel ((Log.Level.ofName? level).getD .info)

/-- The path of the settings file when none is given. -/
def usualPath : String := "config.toml"

/-- What the program does, given its arguments, the files there are and the environment. -/
def run (arguments : List String) (files : String → Option String) (environment : Environment) :
    Outcome :=
  match read {} arguments with
  | .error .usage => { exit := 2 }
  | .error .description => { exit := 0 }
  | .ok a =>
    let path := a.config.getD usualPath
    let asked := a.logLevel.orElse fun _ => environment.lookup "SNIPER_LOG_LEVEL"
    let environment := Variables.extend environment (files ".env")
    match Settings.load (Settings.textAt? files path) environment with
    | .error fault => { exit := 1, fault := some fault }
    | .ok s =>
      let f := filter environment (asked.getD s.general.logLevel)
      { exit := 0
        lines := (report path s).filter fun line => f.passes target line.level
        waits := !a.check }

end LaunchDesk.CommandLine
