import LaunchDesk.Desk.Trader

/-!
# The bench

On the bench there is one machine, and runs are tried on it one after the other. A run that is tried
while another is running fails at once.
-/

namespace LaunchDesk

namespace Bench

/-- How a run on the bench ended. -/
inductive Ending
  | result (result : Except Fault Outcome)
  | crashed (fault : Decimal.Fault)
  | aborted

/-- A run on the bench. -/
inductive Slot
  | working (trader : Trader)
  | over (ending : Ending)
  /-- The run is over, and its end has been fetched. -/
  | fetched

/-- How a run stands. -/
def Slot.ofTrader (t : Trader) : Slot :=
  match t.run.phase with
  | .ended result => .over (.result result)
  | .crashed fault => .over (.crashed fault)
  | _ => .working t

def Slot.isOver : Slot → Bool
  | .working _ => false
  | _ => true

end Bench

structure Bench where
  settings : TradingSettings
  classify : Classifier := Classifier.standard
  desk : Desk
  /-- The runs in the order in which they were tried. -/
  slots : List Bench.Slot := []

namespace Bench

/-- An empty bench with recorders on its bus. Settings with a problem are refused. -/
def create (settings : TradingSettings) (classify : Classifier) : Except Fault Bench := do
  settings.validate
  return { settings := settings, classify := classify,
           desk := Desk.addRecorders { intake := { maxConcurrent := none } } }

/-- The machine of the bench. -/
def machine (b : Bench) : Machine := b.desk.machines 0

/-- The form of the machine in diagnostics. -/
def shownMachine (b : Bench) : String :=
  "TradingStateMachine \x7b config: " ++ b.settings.shown ++ ", running: " ++
    toString b.machine.running ++ ", cancelled: " ++ toString b.machine.cancelled ++ " \x7d"

def cancel (b : Bench) : Bench := { b with desk := b.desk.cancel 0 }

def publishStop (b : Bench) (request : StopRequest) : Bench :=
  { b with desk := b.desk.publishStop request }

/-- Tries a run. -/
def spawn (b : Bench) (bot : BotId) (opportunity : Opportunity) (strategy : Strategy)
    (now : Moment) : Bench :=
  let plan : Plan := ⟨b.settings, bot, opportunity, strategy, b.classify⟩
  match b.desk.start? b.slots.length 0 plan now with
  | some (desk, trader) => { b with desk := desk, slots := b.slots ++ [.ofTrader trader] }
  | none => { b with slots := b.slots ++ [.over (.result (.error .alreadyRunning))] }

/-- A run gets a reply. -/
def reply (b : Bench) (now : Moment) (k : Nat) (reply : Reply) : Bench :=
  match b.slots[k]? with
  | some (.working trader) =>
    let (desk, trader) := b.desk.resume k trader now reply
    { b with desk := desk, slots := b.slots.set k (.ofTrader trader) }
  | _ => b

/-- Breaks a run off. -/
def abort (b : Bench) (k : Nat) : Bench :=
  match b.slots[k]? with
  | some (.working trader) =>
    { b with desk := b.desk.leave trader, slots := b.slots.set k (.over .aborted) }
  | _ => b

/-- Fetches how a run ended; that can be done once. -/
def fetch (b : Bench) (k : Nat) : Option Ending × Bench :=
  match b.slots[k]? with
  | some (.over ending) => (some ending, { b with slots := b.slots.set k .fetched })
  | _ => (none, b)

/-- Whether a run is over; one that was never tried counts as such. -/
def isOver (b : Bench) (k : Nat) : Bool := (b.slots[k]?).elim true Slot.isOver

end Bench

end LaunchDesk
