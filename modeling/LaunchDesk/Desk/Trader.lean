import LaunchDesk.Desk

/-!
# Runs at a desk

A trader is a run on one of the desk's machines. While it runs it is subscribed to stop requests;
that ends, and the machine is free again, however the run ends.
-/

namespace LaunchDesk

/-- A run at a desk. -/
structure Trader where
  machine : Nat
  plan : Plan
  /-- The subscription to stop requests. -/
  subscription : SubscriptionId
  run : Run

namespace Desk

/-- Does what a run wants, in order, until there is an overflow. -/
def carryOut : Desk → List Run.Notice → Desk × Option Decimal.Fault
  | d, [] => (d, none)
  | d, .log line :: rest => carryOut (d.log line) rest
  | d, .publish event :: rest =>
    match d.publish event with
    | (d, none) => carryOut d rest
    | (d, some fault) => (d, some fault)

/-- Frees the machine of a run. -/
def leave (d : Desk) (t : Trader) : Desk :=
  (d.unsubscribe t.subscription).updateMachine t.machine fun m => { m with running := false }

/-- Goes on with a run as it is now. A run that is over leaves its machine. -/
def goOn (d : Desk) (who : Nat) (t : Trader) (run : Run) : Desk × Trader :=
  let t := { t with run := run }
  match t.run.request? t.plan with
  | some request => (d.note (.asked who request), t)
  | none => (d.leave t, t)

/-- Carries out how a run went on. -/
def proceed (d : Desk) (who : Nat) (t : Trader) (p : Run.Progress) : Desk × Trader :=
  let (d, fault) := d.carryOut p.2
  d.goOn who t (fault.elim p.1 p.1.crash)

/-- Starts run number `who` on machine `m`, if the machine is free. -/
def start? (d : Desk) (who m : Nat) (plan : Plan) (now : Moment) : Option (Desk × Trader) :=
  if (d.machines m).running then none
  else
    let d := d.updateMachine m fun s => { s with running := true }
    let (id, d) := d.subscribe .stop (.run m plan.botId)
    let p := Run.start plan (d.machines m).cancelled now
    some (d.proceed who { machine := m, plan := plan, subscription := id, run := p.1 } p)

/-- A run goes on with a reply. -/
def resume (d : Desk) (who : Nat) (t : Trader) (now : Moment) (reply : Reply) : Desk × Trader :=
  d.proceed who t (t.run.resume t.plan (d.machines t.machine).cancelled now reply)

end Desk

end LaunchDesk
