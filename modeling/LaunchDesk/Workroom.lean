import LaunchDesk.Desk

/-!
# Workrooms

A workroom is a desk whose opportunities are worked on by others, who say how the work on each of
them ended. The intake is there as long as someone has a use for it: the one who made it, the
overseer, someone who waits for it, or work in progress. The feed does not keep it there.
-/

namespace LaunchDesk

structure Workroom where
  desk : Desk
  /-- Whether the one who made the intake still has it. -/
  held : Bool := true
  /-- The subscriptions of the overseer. -/
  overseerIds : List SubscriptionId := []
  /-- The opportunities that are still worked on. -/
  unfinished : List Nat := []

namespace Workroom

/-- A workroom with recorders on its bus, and with an overseer if there are limits. -/
def create (maxConcurrent : Option Nat) (oversight : Option (Limits × Decimal)) : Workroom :=
  let desk : Desk := { intake := { maxConcurrent := maxConcurrent } }
  match oversight with
  | none => { desk := desk }
  | some (limits, balance) =>
    let (ids, desk) := desk.addRecorders.appoint limits balance
    { desk := desk, overseerIds := ids }

/-- The numbers of the opportunities that notes say were admitted. -/
def admissions (notes : List Desk.Note) : List Nat :=
  notes.filterMap fun
    | .admitted index _ => some index
    | _ => none

/-- Goes on with the desk as it is after something was done: what it admitted counts as unfinished,
and those who were woken look at the intake. -/
def settle (w : Workroom) (desk : Desk) : Workroom :=
  let desk := desk.lookAround
  { w with
    desk := desk
    unfinished := w.unfinished ++ admissions (desk.notes.drop w.desk.notes.length) }

/-- Whether the intake is still there. -/
def hasIntake (w : Workroom) : Bool :=
  w.held || w.desk.overseer.isSome || w.desk.intake.inProgress != 0 ||
    w.desk.waiters.any fun waiter => !waiter.finished

/-- Whether the feed passes an opportunity on: to the listener that it has, or, for a `stale` one,
to the last that it ever had. -/
def passesOn (w : Workroom) (stale : Bool) : Bool :=
  if stale then w.desk.intake.feed.everAttached else w.desk.intake.feed.attached

/-- The feed delivers an opportunity; without an intake nothing comes of it. -/
def deliver (w : Workroom) (stale : Bool) (opportunity : Opportunity) : Workroom :=
  if w.passesOn stale && w.hasIntake then w.settle (w.desk.deliver opportunity) else w

def start (w : Workroom) (resuming : Bool) : Workroom × Option Fault :=
  let (desk, fault) := w.desk.startIntake resuming
  (w.settle desk, fault)

def stop (w : Workroom) (force : Bool) : Workroom := w.settle (w.desk.stopIntake force)

/-- The work on an opportunity has ended. -/
def finish (w : Workroom) (index : Nat) (ending : Intake.Ending) : Workroom :=
  if w.unfinished.contains index then
    { w with unfinished := w.unfinished.erase index }.settle (w.desk.finish index ending)
  else w

def publish (w : Workroom) (event : Event) : Workroom × Option Decimal.Fault :=
  let (desk, fault) := w.desk.publish event
  (w.settle desk, fault)

/-- Asks for a stop of everything, if there is an overseer to do so. -/
def stopAll (w : Workroom) (reason : StopReason) (exclude : Option BotId) : Workroom :=
  if w.desk.overseer.isSome then w.settle (w.desk.stopAll reason exclude) else w

def wait (w : Workroom) (goal : Intake.Goal) : Workroom := w.settle (w.desk.wait goal)

/-- Lets the overseer go. -/
def dismiss (w : Workroom) : Workroom :=
  { w with desk := w.desk.dismiss w.overseerIds, overseerIds := [] }

/-- Gives up the intake; it stays as long as others use it. -/
def letGo (w : Workroom) : Workroom := { w with held := false }

/-- Sets what the next attempt to attach to the feed fails with. -/
def failNext (w : Workroom) (text : String) : Workroom := { w with desk := w.desk.failNext text }

/-- Sets what happens during the next attempt to attach to the feed that does not fail. -/
def interruptNext (w : Workroom) (interruption : Interruption) : Workroom :=
  { w with desk := w.desk.interruptNext interruption }

end Workroom

end LaunchDesk
