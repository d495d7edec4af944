import LaunchDesk.Bus
import LaunchDesk.Order
import LaunchDesk.Settings

/-!
# Runs

A run follows one opportunity tick by tick: it looks at the market until it buys or leaves, and once
it has bought it goes on until the position is sold. It is given as what it waits for and how it
goes on when it gets it. Going on yields notices, in order: lines for the log and events to publish.
-/

namespace LaunchDesk

/-- What a run is made for. -/
structure Plan where
  settings : TradingSettings
  botId : BotId
  opportunity : Opportunity
  strategy : Strategy
  classify : Classifier

/-- A moment, on the clock that counts milliseconds and on the one on the wall. -/
structure Moment where
  ms : Nat
  wall : Stamp
deriving DecidableEq

namespace Run

/-- Where a run stands between two ticks. -/
inductive Stance
  /-- It has neither bought nor decided to leave. -/
  | looking
  /-- It will leave at the first tick that ends at the deadline or later. -/
  | leaving (deadlineMs : Nat)
  /-- It has a position that `buy` opened. -/
  | holding (buy : Fill) (position : Position)
deriving DecidableEq

/-- What a run is doing; `seen` is the snapshot of the tick. -/
inductive Phase
  | fetching (stance : Stance)
  | buying (seen : Snapshot)
  | salvaging (kind : FatalKind) (cause : ExecutionFault)
  | opening (seen : Snapshot) (buy : Fill) (position : Position)
  | selling (seen : Snapshot) (buy : Fill) (position : Position) (reason : String)
  | closing (seen : Snapshot) (buy sell : Fill) (position : Position) (closure : Closure)
  | recording (outcome : Outcome) (report : Report)
  | resting (stance : Stance)
  | ended (result : Except Fault Outcome)
  | crashed (fault : Decimal.Fault)

/-- What a run does besides going on. -/
inductive Notice
  | log (line : Log.Line)
  | publish (event : Event)
deriving DecidableEq

end Run

/-- A run in progress. -/
structure Run where
  /-- The number of the tick. -/
  tick : Nat := 0
  /-- When it began. -/
  startMs : Nat
  /-- What was noted so far, the newest entry first. -/
  entries : List Entry := []
  phase : Run.Phase

namespace Run

/-- A run and the notices that it gave. -/
abbrev Progress : Type := Run × List Notice

/-- Notices in front of others. -/
def after (notices : List Notice) (p : Progress) : Progress := (p.1, notices ++ p.2)

def info (message : String) (fields : List (String × String)) : Notice :=
  .log (.info message fields)

def warn (message : String) (fields : List (String × String)) : Notice :=
  .log (.warn message fields)

/-- The field that names the run. -/
def botField (plan : Plan) : String × String := ("bot_id", plan.botId.text)

def tickField (r : Run) : String × String := ("tick", toString r.tick)

def enter (r : Run) (phase : Phase) : Run := { r with phase := phase }

/-- The entries so far, in order. -/
def history (r : Run) : List Entry := r.entries.reverse

/-- Adds an entry to the history. -/
def record (r : Run) (now : Moment) (seen : Option Snapshot) (action : Action) : Run :=
  { r with entries := ⟨UInt64.ofNat r.tick, now.wall, seen, action⟩ :: r.entries }

/-- The time from one tick to the next. -/
def interval (settings : TradingSettings) : Stance → Nat
  | .holding _ _ => settings.sellPollIntervalMs.toNat
  | _ => settings.buyPollIntervalMs.toNat

def makeBuyOrder (plan : Plan) : BuyOrder :=
  { botId := plan.botId, mint := plan.opportunity.mint,
    bondingCurve := plan.opportunity.bondingCurve, amount := plan.settings.buyAmount,
    slippageBps := plan.settings.slippageBps, metadata := plan.strategy.metadata }

def makeSellOrder (plan : Plan) (position : Position) (reason : String) : SellOrder :=
  { botId := plan.botId, mint := position.mint, bondingCurve := plan.opportunity.bondingCurve,
    tokenAmount := some position.tokenAmount, slippageBps := plan.settings.slippageBps,
    reason := reason, metadata := plan.strategy.metadata }

/-- An order to sell whatever a failed buy may have brought. -/
def makeSalvageOrder (plan : Plan) : SellOrder :=
  { botId := plan.botId, mint := plan.opportunity.mint,
    bondingCurve := plan.opportunity.bondingCurve, tokenAmount := none,
    slippageBps := plan.settings.slippageBps, reason := "salvage",
    metadata := plan.strategy.metadata }

/-- What the run waits for. -/
def request? (plan : Plan) (r : Run) : Option Request :=
  match r.phase with
  | .fetching _ => some .snapshot
  | .buying _ => some (.buy (makeBuyOrder plan))
  | .salvaging _ _ => some (.salvage (makeSalvageOrder plan) plan.settings.salvageTimeoutMs.toNat)
  | .opening _ _ position => some (.insertPosition position)
  | .selling _ _ position reason => some (.sell (makeSellOrder plan position reason))
  | .closing _ _ _ position closure => some (.closePosition position.tradeId closure)
  | .recording outcome report => some (.insertOutcome outcome report)
  | .resting stance => some (.rest (interval plan.settings stance))
  | .ended _ => none
  | .crashed _ => none

/-- Whether the run is over. -/
def isOver (r : Run) : Bool :=
  match r.phase with
  | .ended _ => true
  | .crashed _ => true
  | _ => false

/-! ## The end -/

/-- Goes on to store an outcome. -/
def recordOutcome (plan : Plan) (now : Moment) (r : Run) (outcome : Outcome) : Run :=
  r.enter (.recording outcome
    { botId := plan.botId
      mint := plan.opportunity.mint
      ticks := UInt64.ofNat r.tick
      durationMs := UInt64.ofNat (min (now.ms - r.startMs) (UInt64.size - 1))
      realizedPnl := outcome.realizedPnl })

/-- Leaves without a position. -/
def depart (plan : Plan) (now : Moment) (r : Run) (reason : ExitReason) : Progress :=
  (recordOutcome plan now r
      (.exited ⟨plan.botId, plan.opportunity.mint, reason, r.history⟩),
    [info "Run ended without a trade"
      [botField plan, ("reason", reason.text), ("ticks", toString r.tick)]])

/-! ## Ticks -/

/-- Begins the next tick. A run that is cancelled leaves, unless it has a position. -/
def nextTick (plan : Plan) (cancelled : Bool) (now : Moment) (r : Run) (stance : Stance) :
    Progress :=
  let r := { r with tick := r.tick + 1 }
  let leave : Progress :=
    after [info "Run cancelled without a position" [botField plan, r.tickField]]
      (depart plan now (r.record now none .cancelled) .stopped)
  match stance, cancelled with
  | .holding _ _, _ => (r.enter (.fetching stance), [])
  | _, true => leave
  | _, false => (r.enter (.fetching stance), [])

/-- Ends a tick: a run whose time to leave has come leaves, another one rests. -/
def endTick (plan : Plan) (now : Moment) (r : Run) (stance : Stance) : Progress :=
  let rest : Progress := (r.enter (.resting stance), [])
  match stance with
  | .leaving deadline =>
    if deadline ≤ now.ms then
      after [info "Exit grace window elapsed" [botField plan, r.tickField]]
        (depart plan now r .strategyExit)
    else rest
  | _ => rest

/-- The market could not be looked at. -/
def snapshotFailed (plan : Plan) (now : Moment) (r : Run) (stance : Stance) (fault : Fault) :
    Progress :=
  after [warn "Snapshot fetch failed, skipping tick"
      [botField plan, r.tickField, ("error", fault.message)]]
    (endTick plan now (r.record now none (.snapshotFailed fault.message)) stance)

/-- A tick of a run that looks: it may decide to leave, or to buy. -/
def lookAt (plan : Plan) (now : Moment) (r : Run) (seen : Snapshot) : Progress :=
  if plan.strategy.shouldExit none seen then
    let grace := plan.settings.maxWaitAfterDecisionMs.toNat
    after [info "Strategy signalled exit before buying"
        [botField plan, r.tickField, ("grace_ms", toString grace)]]
      (endTick plan now (r.record now (some seen) .exitSignal) (.leaving (now.ms + grace)))
  else if plan.strategy.shouldBuy seen then
    ((r.record now (some seen) .buySignal).enter (.buying seen),
      [info "Attempting buy"
        [botField plan, ("amount", plan.settings.buyAmount.text), ("price", seen.price.text)]])
  else endTick plan now (r.record now (some seen) .observed) .looking

/-- Starts to sell. The log line has the change of the price, and computing it may overflow. It is
computed for a log that takes lines of this level, as here; one that leaves them out never asks. -/
def trySell (plan : Plan) (now : Moment) (r : Run) (seen : Snapshot) (buy : Fill)
    (position : Position) (reason : String) : Progress :=
  let r := r.record now (some seen) (.sellSignal reason)
  match position.changePercent seen.price with
  | .error fault => (r.enter (.crashed fault), [])
  | .ok change =>
    (r.enter (.selling seen buy position reason),
      [info "Attempting sell"
        [botField plan, ("reason", reason), ("price", seen.price.text),
          ("change_pct", (change.roundTo 2).text)]])

/-- The reason for a sell that a cancel forces. -/
def stoppedReason : String := "stopped"

/-- A tick of a run with a position: the strategy or a cancel may make it sell. -/
def watch (plan : Plan) (cancelled : Bool) (now : Moment) (r : Run) (seen : Snapshot) (buy : Fill)
    (position : Position) : Progress :=
  let position := position.observe seen.price
  match plan.strategy.shouldSell position seen with
  | .error fault => (r.enter (.crashed fault), [])
  | .ok decision =>
    if decision.sell then trySell plan now r seen buy position (decision.reasonOr "strategy")
    else if cancelled then trySell plan now r seen buy position stoppedReason
    else if plan.strategy.shouldExit (some position) seen then
      after [.log (.debug "Ignoring exit signal while holding a position" [botField plan])]
        (endTick plan now (r.record now (some seen) .exitIgnored) (.holding buy position))
    else endTick plan now (r.record now (some seen) .observed) (.holding buy position)

/-- The market has been looked at. -/
def seeing (plan : Plan) (cancelled : Bool) (now : Moment) (r : Run) (seen : Snapshot) :
    Stance → Progress
  | .looking => lookAt plan now r seen
  | .leaving deadline => endTick plan now (r.record now (some seen) .observed) (.leaving deadline)
  | .holding buy position => watch plan cancelled now r seen buy position

/-! ## Buying -/

/-- The position that a buy opens. -/
def openPosition (plan : Plan) (seen : Snapshot) (buy : Fill) : Position :=
  let thresholds := plan.strategy.exitThresholds seen
  { tradeId := buy.id
    botId := plan.botId
    mint := buy.mint
    entryPrice := buy.price
    tokenAmount := buy.tokenAmount
    cost := buy.netAmount
    stopLossPercent := thresholds.stopLossPercent
    takeProfitPercent := thresholds.takeProfitPercent
    trailingStopPercent := thresholds.trailingStopPercent
    peakPrice := buy.price
    status := .isOpen
    openedAt := buy.executedAt
    closedAt := none }

/-- A buy was not executed: the run tries again on the next tick, or salvages what it can. -/
def buyFailed (plan : Plan) (now : Moment) (r : Run) (seen : Snapshot) (cause : ExecutionFault) :
    Progress :=
  let r := r.record now (some seen) (.buyFailed cause.message)
  match plan.classify cause with
  | .fatal kind =>
    (r.enter (.salvaging kind cause),
      [.log (.error "Fatal buy error"
        [botField plan, ("kind", kind.text), ("error", cause.message)])])
  | .transient =>
    after [warn "Buy failed, will re-evaluate next tick"
        [botField plan, ("error", cause.message)]]
      (endTick plan now r .looking)

/-- A fatal buy has been salvaged, as far as it could be. -/
def salvaged (plan : Plan) (r : Run) (kind : FatalKind) (cause : ExecutionFault) (line : Log.Line) :
    Progress :=
  (r.enter (.ended (.error (.buyFatal kind cause))),
    [.log { line with fields := botField plan :: line.fields }])

/-- What the log says when something could not be stored. -/
def storeWarning (plan : Plan) (message : String) : Except Fault Unit → List Notice
  | .ok () => []
  | .error fault => [warn message [botField plan, ("error", fault.message)]]

/-- A position is open. -/
def opened (plan : Plan) (now : Moment) (r : Run) (seen : Snapshot) (buy : Fill)
    (position : Position) (stored : Except Fault Unit) : Progress :=
  after (storeWarning plan "Failed to persist opened position" stored ++
      [info "Buy succeeded"
        [botField plan, ("signature", buy.signature), ("tokens", buy.tokenAmount.text),
          ("net", buy.netAmount.text)],
        .publish (.trade plan.botId buy)])
    (endTick plan now (r.record now (some seen) .bought) (.holding buy position))

/-! ## Selling -/

/-- A sell was not executed; the run tries again on the next tick. -/
def sellFailed (plan : Plan) (now : Moment) (r : Run) (seen : Snapshot) (buy : Fill)
    (position : Position) (cause : ExecutionFault) : Progress :=
  after [warn "Sell failed, retrying next tick"
      [botField plan, ("error", cause.message), ("class", (plan.classify cause).shown)]]
    (endTick plan now (r.record now (some seen) (.sellFailed cause.message))
      (.holding buy position))

/-- What is noted about a position that `sell` closes. -/
def closureOf (position : Position) (sell : Fill) (reason : String) :
    Except Decimal.Fault Closure := do
  let pnl ← sell.netAmount.sub position.cost
  return { exitPrice := sell.price, realizedPnl := pnl, reason := reason,
           signature := sell.signature, closedAt := sell.executedAt }

/-- A sell was executed. -/
def sold (r : Run) (seen : Snapshot) (buy sell : Fill) (position : Position) (reason : String) :
    Progress :=
  match closureOf position sell reason with
  | .error fault => (r.enter (.crashed fault), [])
  | .ok closure =>
    let position := { position with status := .closed, closedAt := some sell.executedAt }
    (r.enter (.closing seen buy sell position closure), [])

/-- A position is closed: the sell is published, and then the round trip. -/
def closed (plan : Plan) (now : Moment) (r : Run) (seen : Snapshot) (buy sell : Fill)
    (closure : Closure) (stored : Except Fault Unit) : Progress :=
  let r := r.record now (some seen) .sold
  after (storeWarning plan "Failed to persist position close" stored ++
      [info "Sell succeeded"
        [botField plan, ("signature", sell.signature), ("net", sell.netAmount.text),
          ("pnl", closure.realizedPnl.text)],
        .publish (.trade plan.botId sell)])
    (match Outcome.ofFills plan.botId buy sell closure.reason r.history with
      | .error fault => (r.enter (.crashed fault), [])
      | .ok outcome =>
        (recordOutcome plan now r outcome,
          [info "Trade cycle completed"
            [botField plan, ("pnl", outcome.realizedPnl.text), ("ticks", toString r.tick)],
            .publish (.cycle plan.botId outcome)]))

/-! ## Steps -/

/-- The first tick of a run. -/
def start (plan : Plan) (cancelled : Bool) (now : Moment) : Progress :=
  after [info "Monitoring opportunity" [botField plan]]
    (nextTick plan cancelled now { startMs := now.ms, phase := .resting .looking } .looking)

/-- How a run goes on with a reply, when it gets it and may have been cancelled. A reply that it
does not wait for changes nothing. -/
def resume (plan : Plan) (cancelled : Bool) (now : Moment) (r : Run) (reply : Reply) : Progress :=
  match r.phase, reply with
  | .fetching stance, .snapshot (.ok seen) => seeing plan cancelled now r seen stance
  | .fetching stance, .snapshot (.error fault) => snapshotFailed plan now r stance fault
  | .buying seen, .order (.ok buy) => (r.enter (.opening seen buy (openPosition plan seen buy)), [])
  | .buying seen, .order (.error cause) => buyFailed plan now r seen cause
  | .salvaging kind cause, .order (.ok sell) =>
    salvaged plan r kind cause (.info "Salvage sell succeeded" [("signature", sell.signature)])
  | .salvaging kind cause, .order (.error fault) =>
    salvaged plan r kind cause (.debug "Salvage sell failed" [("error", fault.message)])
  | .salvaging kind cause, .expired => salvaged plan r kind cause (.debug "Salvage sell timed out")
  | .opening seen buy position, .stored answer => opened plan now r seen buy position answer
  | .selling seen buy position reason, .order (.ok sell) => sold r seen buy sell position reason
  | .selling seen buy position _, .order (.error cause) =>
    sellFailed plan now r seen buy position cause
  | .closing seen buy sell _ closure, .stored answer =>
    closed plan now r seen buy sell closure answer
  | .recording outcome _, .stored answer =>
    (r.enter (.ended (.ok outcome)), storeWarning plan "Failed to persist trade outcome" answer)
  | .resting stance, .rested => nextTick plan cancelled now r stance
  | _, _ => (r, [])

/-- An overflow outside ends a run. -/
def crash (r : Run) (fault : Decimal.Fault) : Run := r.enter (.crashed fault)

end Run

end LaunchDesk
