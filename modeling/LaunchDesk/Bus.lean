import LaunchDesk.Log
import LaunchDesk.Outcome
import LaunchDesk.Stop

/-!
# The event bus

What is published for everyone on the desk are trades, finished runs, and requests to stop. The bus
knows who is subscribed to which kind of event, in the order of subscribing. Every subscription of
any kind gets the next number. An event goes to those who are subscribed to its kind when it is
published.
-/

namespace LaunchDesk

/-! ## Events -/

inductive EventKind
  | trade
  | cycle
  | stop
deriving DecidableEq, Repr

inductive Event
  | trade (bot : BotId) (fill : Fill)
  | cycle (bot : BotId) (outcome : Outcome)
  | stop (request : StopRequest)
deriving DecidableEq

namespace Event

def kind : Event → EventKind
  | .trade _ _ => .trade
  | .cycle _ _ => .cycle
  | .stop _ => .stop

/-- What the log says when the event is published. -/
def logLine : Event → Log.Line
  | .trade bot fill =>
    .debug "Publishing trade executed" [("bot_id", bot.text), ("side", fill.side.text)]
  | .cycle bot _ => .debug "Publishing trade cycle completed" [("bot_id", bot.text)]
  | .stop request =>
    .debug "Publishing stop requested"
      [("reason", request.reason.text), ("scoped", toString request.isScoped)]

end Event

/-! ## Subscriptions -/

/-- The number of a subscription. -/
abbrev SubscriptionId : Type := Nat

/-- The subscriptions of every kind; `η` is what stands for a subscriber. -/
structure Bus (η : Type) where
  /-- The number of the next subscription. -/
  next : SubscriptionId := 1
  trades : List (SubscriptionId × η) := []
  cycles : List (SubscriptionId × η) := []
  stops : List (SubscriptionId × η) := []

namespace Bus

variable {η : Type}

/-- The subscriptions of a kind, in order. -/
def subscribed (b : Bus η) : EventKind → List (SubscriptionId × η)
  | .trade => b.trades
  | .cycle => b.cycles
  | .stop => b.stops

/-- Adds a subscriber behind the others of its kind. -/
def subscribe (b : Bus η) (kind : EventKind) (h : η) : SubscriptionId × Bus η :=
  let entry := (b.next, h)
  let b := { b with next := b.next + 1 }
  (entry.1,
    match kind with
    | .trade => { b with trades := b.trades ++ [entry] }
    | .cycle => { b with cycles := b.cycles ++ [entry] }
    | .stop => { b with stops := b.stops ++ [entry] })

/-- Whether a list holds a subscription. -/
def holds (id : SubscriptionId) (entries : List (SubscriptionId × η)) : Bool :=
  entries.any fun e => e.1 == id

def without (id : SubscriptionId) (entries : List (SubscriptionId × η)) :
    List (SubscriptionId × η) :=
  entries.filter fun e => e.1 != id

/-- Removes a subscription from the first kind that has it, and says whether there was one. -/
def unsubscribe (b : Bus η) (id : SubscriptionId) : Bool × Bus η :=
  if holds id b.trades then (true, { b with trades := without id b.trades })
  else if holds id b.cycles then (true, { b with cycles := without id b.cycles })
  else if holds id b.stops then (true, { b with stops := without id b.stops })
  else (false, b)

/-- How many subscriptions there are. -/
def count (b : Bus η) : Nat := b.trades.length + b.cycles.length + b.stops.length

/-- Whether a subscription has ever been given this number. -/
def wasGiven (b : Bus η) (id : SubscriptionId) : Bool := decide (0 < id) && decide (id < b.next)

/-- The form shown in diagnostics. -/
def shown (b : Bus η) : String :=
  "EventBus \x7b trade_executed: " ++ toString b.trades.length ++ ", trade_cycle_completed: " ++
    toString b.cycles.length ++ ", stop_requested: " ++ toString b.stops.length ++ " \x7d"

end Bus

end LaunchDesk
