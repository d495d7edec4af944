import LaunchDesk.Feed
import LaunchDesk.Log

/-!
# The intake

The intake takes opportunities from the feed and bounds how many of them are worked on at once. At
the ceiling it lets go of the feed; an opportunity that comes in while it does not listen is
dropped, for the feed is live. When work on an opportunity ends and there is room again, the intake
attaches itself to the feed again, unless it was stopped by force.
-/

namespace LaunchDesk

namespace Intake

/-- What the intake does besides changing itself. -/
inductive Note
  | log (line : Log.Line)
  /-- Work on an opportunity begins. -/
  | admitted (index : Nat) (opportunity : Opportunity)
  /-- Those who wait for the intake have to look at it again. -/
  | changed
deriving DecidableEq

end Intake

structure Intake where
  /-- The ceiling; unset for none. -/
  maxConcurrent : Option Nat
  /-- Whether opportunities are taken. -/
  listening : Bool := false
  /-- Whether the intake is to stay stopped until it is started. -/
  forced : Bool := false
  /-- How many admitted opportunities are still worked on. -/
  inProgress : Nat := 0
  /-- The number of the next opportunity that is admitted. -/
  nextIndex : Nat := 0
  feed : Feed := {}
  /-- What was done, in order. -/
  notes : List Intake.Note := []
deriving DecidableEq

namespace Intake

/-- How the work on an opportunity ended. -/
inductive Ending
  | finished
  | failed (why : String)
  | panicked
deriving DecidableEq, Repr

/-- What the log says about an ending. -/
def Ending.logLine (index : Nat) : Ending → Log.Line
  | .finished => .debug "Opportunity processing finished" [("task_index", toString index)]
  | .failed why =>
    .error "Opportunity processing failed" [("task_index", toString index), ("error", why)]
  | .panicked => .error "Opportunity processing panicked" [("task_index", toString index)]

def note (i : Intake) (n : Note) : Intake := { i with notes := i.notes ++ [n] }

def log (i : Intake) (line : Log.Line) : Intake := i.note (.log line)

/-- Neither listening nor at work. -/
def isDone (i : Intake) : Bool := !i.listening && i.inProgress == 0

def isIdle (i : Intake) : Bool := i.inProgress == 0

/-- What one may wait for. -/
inductive Goal
  /-- Nothing is worked on. -/
  | idle
  /-- The intake neither listens nor is anything worked on. -/
  | done
deriving DecidableEq, Repr

def Goal.holds : Goal → Intake → Bool
  | .idle, i => i.isIdle
  | .done, i => i.isDone

/-- Whether as much is worked on as may be. -/
def isFull (i : Intake) : Bool := i.maxConcurrent.any fun max => decide (max ≤ i.inProgress)

def updateFeed (i : Intake) (f : Feed → Feed) : Intake := { i with feed := f i.feed }

/-- Lets go of the feed. -/
def detach (i : Intake) : Intake := i.updateFeed Feed.detach

/-- Stops listening. With `force` it stays that way until the next start. -/
def stop (i : Intake) (force : Bool) : Intake :=
  let stopped := { i with forced := i.forced || force, listening := false }
  let stopped :=
    if i.listening then
      (stopped.log (.info "Stopping opportunity intake" [("force", toString force)])).detach
    else stopped
  stopped.note .changed

/-- Stops listening because there is no room. -/
def pause (i : Intake) : Intake :=
  if i.listening then { i with listening := false }.detach else i

/-- Gives the next number to an opportunity and pauses if that was the last place. -/
def takeOn (i : Intake) (opportunity : Opportunity) : Intake :=
  let index := i.nextIndex
  let i := { i with inProgress := i.inProgress + 1, nextIndex := index + 1 }
  let i := (i.log (.info "Admitted opportunity"
    [("task_index", toString index), ("mint", opportunity.mint)])).note
      (.admitted index opportunity)
  if i.isFull then
    (i.log (.info "Reached max concurrent opportunities, pausing intake"
      [("max_concurrent", Log.optional toString i.maxConcurrent)])).pause
  else i

/-- Takes an opportunity from the feed, or drops it. -/
def deliver (i : Intake) (opportunity : Opportunity) : Intake :=
  if !i.listening then
    i.log (.debug "Intake paused, dropping opportunity" [("mint", opportunity.mint)])
  else if i.isFull then
    (i.log (.info "Reached max concurrent opportunities, pausing intake"
      [("max_concurrent", ((i.maxConcurrent.map toString).getD "")),
        ("mint", opportunity.mint)])).pause
  else i.takeOn opportunity

/-- Starting an intake that listens only takes back a stop by force. -/
def startAgain (i : Intake) : Intake :=
  { i with forced := false }.log (.debug "Admission listener already started")

/-- What happens while the feed is attaching the intake; it listens already then. -/
def interrupt (i : Intake) : Interruption → Intake
  | .stop force => i.stop force
  | .start => i.startAgain
  | .deliver opportunity => i.deliver opportunity

/-- Attaches an intake that listens to the feed. If it was stopped meanwhile, it lets go of the feed
at once; if the feed refuses, it does not listen. -/
def connect (i : Intake) : Intake × Option Fault :=
  match i.feed.attempt with
  | (some fault, feed) => ({ i with feed := feed, listening := false }, some fault)
  | (none, feed) =>
    let (interruption, feed) := feed.accept
    let i := { i with feed := feed }
    let i := interruption.elim i i.interrupt
    let i := i.updateFeed Feed.attach
    if i.listening then (i, none)
    else
      ((i.log (.debug "Intake stopped while subscribing, dropping feed subscription")).detach, none)

/-- Starts listening and takes back a stop by force. -/
def start (i : Intake) (resuming : Bool) : Intake × Option Fault :=
  if i.listening then (i.startAgain, none)
  else
    ({ i with forced := false, listening := true }.log
      (if resuming then .info "Resuming opportunity intake"
        else .info "Starting opportunity intake"
          [("max_concurrent", Log.optional toString i.maxConcurrent)])).connect

/-- Whether the intake goes on by itself: there is room, and nobody stopped it by force. -/
def resumes (i : Intake) : Bool := !i.listening && !i.forced && !i.isFull

/-- Frees a place, and listens again if it can. -/
def release (i : Intake) : Intake :=
  let i := { i with inProgress := i.inProgress - 1 }
  let i :=
    if i.resumes then
      match ({ i with listening := true }.log
          (.info "Capacity freed, resuming opportunity intake")).connect with
      | (i, none) => i
      | (i, some fault) =>
        i.log (.warn "Failed to resume opportunity intake" [("error", fault.message)])
    else i
  i.note .changed

/-- Work on an opportunity has ended. -/
def finish (i : Intake) (index : Nat) (ending : Ending) : Intake :=
  (i.log (ending.logLine index)).release

/-- The form shown in diagnostics. -/
def shown (i : Intake) : String :=
  "AdmissionListener \x7b max_concurrent: " ++ Log.optional toString i.maxConcurrent ++
    ", state: IntakeState \x7b listening: " ++ toString i.listening ++ ", forced: " ++
    toString i.forced ++ ", in_progress: " ++ toString i.inProgress ++ ", next_task_index: " ++
    toString i.nextIndex ++ " \x7d \x7d"

end Intake

end LaunchDesk
