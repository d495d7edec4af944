import LaunchDesk.Fault
import LaunchDesk.Market

/-!
# The feed

A feed delivers opportunities to whoever is attached to it. Attaching may fail, and it may be
interrupted: between the call and the moment at which the new listener is in place, the listener may
be stopped, be started again or be given an opportunity.
-/

namespace LaunchDesk

/-- What happens to a listener while it is being attached. -/
inductive Interruption
  | stop (force : Bool)
  | start
  | deliver (opportunity : Opportunity)
deriving DecidableEq

structure Feed where
  /-- Whether a listener is in place. -/
  attached : Bool := false
  /-- Whether a listener has ever been accepted; one that has can still be reached later on. -/
  everAttached : Bool := false
  /-- How often it was asked to attach a listener. -/
  listens : Nat := 0
  /-- How often it was asked to let go of its listener. -/
  unlistens : Nat := 0
  /-- What the next attempt to attach a listener fails with. -/
  nextFault : Option String := none
  /-- What happens during the next attempt that does not fail. -/
  interruption : Option Interruption := none
deriving DecidableEq

namespace Feed

/-- Counts an attempt and takes its fault, if there is one. -/
def attempt (f : Feed) : Option Fault × Feed :=
  (f.nextFault.map .feed, { f with listens := f.listens + 1, nextFault := none })

/-- Accepts a listener, with what happens before it is in place. -/
def accept (f : Feed) : Option Interruption × Feed :=
  (f.interruption, { f with everAttached := true, interruption := none })

def attach (f : Feed) : Feed := { f with attached := true }

def detach (f : Feed) : Feed := { f with attached := false, unlistens := f.unlistens + 1 }

end Feed

end LaunchDesk
