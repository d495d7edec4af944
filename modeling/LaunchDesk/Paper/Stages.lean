import LaunchDesk.Bench
import LaunchDesk.Paper.Rehearsal
import LaunchDesk.Session

/-!
# Stages

What is rehearsed: runs on the bench, and sessions.
-/

namespace LaunchDesk.Paper

/-- The token of the run in a slot of the bench. -/
def slotMint : Bench.Slot → String
  | .working t => t.plan.opportunity.mint
  | _ => ""

instance : Stage Bench where
  desk := Bench.desk
  setDesk b d := { b with desk := d }
  mint b k := (b.slots[k]?).elim "" slotMint
  begin b _ _ := b
  reply := Bench.reply
  vacate b _ := b
  pay b := b

/-- The token of a seat. -/
def seatMint : Session.Seat → String
  | .waiting opportunity => opportunity.mint
  | .working t => t.plan.opportunity.mint
  | _ => ""

instance : Stage Session where
  desk := Session.desk
  setDesk s d := { s with desk := d }
  mint s k := (s.seats[k]?).elim "" seatMint
  begin := Session.begin
  reply := Session.reply
  vacate := Session.vacate
  pay s := s.pay 0

namespace Rehearsal

/-- Tries a run on the bench. -/
def spawn (r : Rehearsal Bench) (bot : BotId) (opportunity : Opportunity) (strategy : Strategy) :
    Rehearsal Bench :=
  r.act (r.stage.spawn bot opportunity strategy r.now)

/-- Breaks a run on the bench off. -/
def abort (r : Rehearsal Bench) (k : Nat) : Rehearsal Bench :=
  (r.forget k).act (r.stage.abort k)

/-- Waits until a run on the bench is over, but not more than `ms`, and fetches how it ended. -/
def join (r : Rehearsal Bench) (k ms : Nat) : Option Bench.Ending × Rehearsal Bench :=
  let r := r.waitFor ms fun b => b.isOver k
  let (ending, bench) := r.stage.fetch k
  (ending, { r with stage := bench })

/-- Waits for the intake of a session, but not more than `ms`; says whether that was enough. -/
def await (r : Rehearsal Session) (begin : Session → Session) (ms : Nat) :
    Bool × Rehearsal Session :=
  let waiter := r.stage.desk.waiters.length
  let r := (r.act (begin r.stage)).waitFor ms fun s => s.isOver waiter
  (r.stage.isOver waiter, r)

/-- Waits until the intake has stopped and every seat is vacated. -/
def awaitDone (r : Rehearsal Session) (ms : Nat) : Bool × Rehearsal Session :=
  r.await (fun s => s.wait .done) ms

/-- Stops a session and waits until every seat is vacated. -/
def shutDown (r : Rehearsal Session) (ms : Nat) : Bool × Rehearsal Session :=
  match r.await Session.beginShutdown ms with
  | (true, r) => (true, r.act r.stage.endShutdown)
  | (false, r) => (false, r)

end Rehearsal

end LaunchDesk.Paper
