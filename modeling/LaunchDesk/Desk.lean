import LaunchDesk.Bus
import LaunchDesk.Intake
import LaunchDesk.Overseer
import LaunchDesk.Run

/-!
# The desk

The desk is what all runs share: the bus, the intake, the overseer if there is one, and the machines
that runs run on. An event is handed to its subscribers one after the other, in the order of their
subscriptions. The overseer answers some events with others, which are handed out in full before its
own turn ends. When the overseer's count overflows, the subscribers behind it are left out and the
publisher is told.
-/

namespace LaunchDesk

/-- Who is subscribed to events. -/
inductive Subscriber
  /-- Keeps a record of what it is told. -/
  | recorder
  | overseer
  /-- Has trades applied to the wallet, later on. -/
  | wallet
  /-- Cancels the machine when its run is asked to stop. -/
  | run (machine : Nat) (bot : BotId)
deriving DecidableEq

/-- What a run runs on. A machine that has been cancelled stays so. -/
structure Machine where
  running : Bool := false
  cancelled : Bool := false
deriving DecidableEq

/-- Someone who waits for the intake. A waiter looks at the intake only when it has been woken. -/
structure Waiter where
  goal : Intake.Goal
  woken : Bool := false
  finished : Bool := false
deriving DecidableEq

namespace Waiter

/-- Waiting begins with a first look. -/
def start (goal : Intake.Goal) (i : Intake) : Waiter := { goal := goal, finished := goal.holds i }

def wake (w : Waiter) : Waiter := { w with woken := true }

/-- A look at the intake, if the waiter was woken. -/
def look (i : Intake) (w : Waiter) : Waiter :=
  if w.woken && !w.finished then { w with woken := false, finished := w.goal.holds i } else w

end Waiter

namespace Desk

/-- What the desk does besides changing itself. -/
inductive Note
  | log (line : Log.Line)
  /-- Work on an opportunity begins. -/
  | admitted (index : Nat) (opportunity : Opportunity)
  /-- A recorder was told of an event. -/
  | recorded (event : Event)
  /-- The wallet is to change. -/
  | owed (amount : Decimal)
  /-- A run waits for something. -/
  | asked (run : Nat) (request : Request)
  /-- A run is over. -/
  | ended (run : Nat)
deriving DecidableEq

end Desk

structure Desk where
  bus : Bus Subscriber := {}
  intake : Intake
  overseer : Option Overseer := none
  /-- A machine that was never used is idle and not cancelled. -/
  machines : Nat → Machine := fun _ => {}
  waiters : List Waiter := []
  /-- What was done, in order. -/
  notes : List Desk.Note := []

namespace Desk

def note (d : Desk) (n : Note) : Desk := { d with notes := d.notes ++ [n] }

def log (d : Desk) (line : Log.Line) : Desk := d.note (.log line)

/-- Takes over what the intake has noted. -/
def hear (d : Desk) : Intake.Note → Desk
  | .log line => d.log line
  | .admitted index opportunity => d.note (.admitted index opportunity)
  | .changed => { d with waiters := d.waiters.map Waiter.wake }

/-- Changes the intake and takes over its notes. -/
def updateIntake (d : Desk) (i : Intake) : Desk :=
  i.notes.foldl hear { d with intake := { i with notes := [] } }

def updateMachine (d : Desk) (m : Nat) (f : Machine → Machine) : Desk :=
  let machines := d.machines
  { d with machines := fun k => if k = m then f (machines m) else machines k }

def subscribe (d : Desk) (kind : EventKind) (s : Subscriber) : SubscriptionId × Desk :=
  let (id, bus) := d.bus.subscribe kind s
  (id, { d with bus := bus })

def unsubscribe (d : Desk) (id : SubscriptionId) : Desk :=
  { d with bus := (d.bus.unsubscribe id).2 }

/-- Cancels a machine. -/
def cancel (d : Desk) (m : Nat) : Desk :=
  if (d.machines m).cancelled then d
  else (d.updateMachine m fun s => { s with cancelled := true }).log (.info "Cancel requested")

/-! ## Stop requests -/

/-- A run is told of a stop request. -/
def tellRun (d : Desk) (request : StopRequest) (m : Nat) (bot : BotId) : Desk :=
  if request.appliesTo bot && !(d.machines m).cancelled then
    (d.updateMachine m fun s => { s with cancelled := true }).log
      (.info "Stop requested, cancelling"
        [("bot_id", bot.text), ("reason", request.reason.text)])
  else d

/-- The overseer is told of a stop request and stops the intake by force. -/
def tellOverseer (d : Desk) (request : StopRequest) : Desk :=
  match d.overseer with
  | none => d
  | some o =>
    let (o, line) := o.onStop request
    let d := { d with overseer := some o }.log line
    d.updateIntake (d.intake.stop true)

/-- One subscriber is told of a stop request. -/
def tellStop (request : StopRequest) (d : Desk) : Subscriber → Desk
  | .recorder => d.note (.recorded (.stop request))
  | .overseer => d.tellOverseer request
  | .wallet => d
  | .run m bot => d.tellRun request m bot

def publishStop (d : Desk) (request : StopRequest) : Desk :=
  d.bus.stops.foldl (fun d e => tellStop request d e.2) (d.log (Event.stop request).logLine)

/-! ## Trades and finished runs -/

/-- Does what the overseer wants. -/
def obey (d : Desk) : Overseer.Reaction → Desk
  | .log line => d.log line
  | .request request => d.publishStop request
  | .startIntake =>
    match d.intake.start true with
    | (i, none) => d.updateIntake i
    | (i, some fault) =>
      (d.updateIntake i).log (.warn "Failed to resume intake" [("error", fault.message)])

/-- Lets the overseer count, and does what it wants. -/
def consult (d : Desk) (next : Overseer × List Overseer.Reaction) : Desk :=
  next.2.foldl obey { d with overseer := some next.1 }

/-- One subscriber is told of a trade. -/
def tellTrade (bot : BotId) (fill : Fill) (d : Desk) : Subscriber → Except Decimal.Fault Desk
  | .recorder => .ok (d.note (.recorded (.trade bot fill)))
  | .overseer =>
    match d.overseer with
    | none => .ok d
    | some o => (o.onTrade bot fill).map d.consult
  | .wallet => .ok (d.note (.owed fill.balanceDelta))
  | .run _ _ => .ok d

/-- Tells the subscribers of a trade until there is an overflow. -/
def tellTrades (bot : BotId) (fill : Fill) :
    Desk → List (SubscriptionId × Subscriber) → Desk × Option Decimal.Fault
  | d, [] => (d, none)
  | d, e :: rest =>
    match tellTrade bot fill d e.2 with
    | .ok d => tellTrades bot fill d rest
    | .error fault => (d, some fault)

def publishTrade (d : Desk) (bot : BotId) (fill : Fill) : Desk × Option Decimal.Fault :=
  tellTrades bot fill (d.log (Event.trade bot fill).logLine) d.bus.trades

/-- One subscriber is told of a finished run. -/
def tellCycle (bot : BotId) (outcome : Outcome) (d : Desk) : Subscriber → Desk
  | .recorder => d.note (.recorded (.cycle bot outcome))
  | .overseer =>
    match d.overseer with
    | none => d
    | some o => d.consult (o.onCycle bot outcome)
  | .wallet => d
  | .run _ _ => d

def publishCycle (d : Desk) (bot : BotId) (outcome : Outcome) : Desk :=
  d.bus.cycles.foldl (fun d e => tellCycle bot outcome d e.2)
    (d.log (Event.cycle bot outcome).logLine)

/-- Publishes an event. -/
def publish (d : Desk) : Event → Desk × Option Decimal.Fault
  | .trade bot fill => d.publishTrade bot fill
  | .cycle bot outcome => (d.publishCycle bot outcome, none)
  | .stop request => (d.publishStop request, none)

/-! ## The intake and the overseer -/

def startIntake (d : Desk) (resuming : Bool) : Desk × Option Fault :=
  let (i, fault) := d.intake.start resuming
  (d.updateIntake i, fault)

def stopIntake (d : Desk) (force : Bool) : Desk := d.updateIntake (d.intake.stop force)

def deliver (d : Desk) (opportunity : Opportunity) : Desk :=
  d.updateIntake (d.intake.deliver opportunity)

def finish (d : Desk) (index : Nat) (ending : Intake.Ending) : Desk :=
  d.updateIntake (d.intake.finish index ending)

/-- Sets what the next attempt to attach to the feed fails with. -/
def failNext (d : Desk) (text : String) : Desk :=
  { d with intake := d.intake.updateFeed fun f => { f with nextFault := some text } }

/-- Sets what happens during the next attempt to attach to the feed that does not fail. -/
def interruptNext (d : Desk) (interruption : Interruption) : Desk :=
  { d with intake := d.intake.updateFeed fun f => { f with interruption := some interruption } }

/-- Someone begins to wait. -/
def wait (d : Desk) (goal : Intake.Goal) : Desk :=
  { d with waiters := d.waiters ++ [Waiter.start goal d.intake] }

/-- Everyone who was woken looks at the intake. -/
def lookAround (d : Desk) : Desk := { d with waiters := d.waiters.map (Waiter.look d.intake) }

/-- Puts an overseer in place, with a subscription for each kind of event. -/
def appoint (d : Desk) (limits : Limits) (balance : Decimal) : List SubscriptionId × Desk :=
  let d := { d with overseer := some { limits := limits, balance := balance } }
  let (trade, d) := d.subscribe .trade .overseer
  let (cycle, d) := d.subscribe .cycle .overseer
  let (stop, d) := d.subscribe .stop .overseer
  ([trade, cycle, stop], d)

/-- Lets the overseer with these subscriptions go. -/
def dismiss (d : Desk) (ids : List SubscriptionId) : Desk :=
  { ids.foldl unsubscribe d with overseer := none }

/-- What the log says before everyone is asked to stop. -/
def stopLine (reason : StopReason) (exclude : Option BotId) : Log.Line :=
  .warn "Stopping all state machines"
    [("reason", reason.text), ("excluded", Log.optional BotId.shown exclude)]

/-- The request that asks everyone but one run to stop. -/
def stopRequest (reason : StopReason) (exclude : Option BotId) : StopRequest :=
  exclude.elim (.all reason) (StopRequest.all reason).excluding

/-- Asks everyone but one run to stop. -/
def stopAll (d : Desk) (reason : StopReason) (exclude : Option BotId) : Desk :=
  (d.log (stopLine reason exclude)).publishStop (stopRequest reason exclude)

/-- Puts a recorder on every kind of event. -/
def addRecorders (d : Desk) : Desk :=
  let (_, d) := d.subscribe .trade .recorder
  let (_, d) := d.subscribe .cycle .recorder
  (d.subscribe .stop .recorder).2

end Desk

end LaunchDesk
