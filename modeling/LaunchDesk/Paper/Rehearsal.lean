import LaunchDesk.Desk.Trader
import LaunchDesk.Paper.Exchange

/-!
# Rehearsals

A rehearsal plays what happens at a desk against a market on paper, on a clock of its own. Time
stands still while there is something to do; then it moves on to the next moment at which an answer
arrives. Answers that take no time are there at once, and the run that asked goes on with them
before anything else happens. All other things are done in the order in which they came up.
-/

namespace LaunchDesk.Paper

/-- Something to be done. -/
inductive Job
  /-- Work on an admitted opportunity is set up. -/
  | setUp (run : Nat)
  | begin (run : Nat)
  | answer (run : Nat) (pending : Exchange.Pending)
  /-- The place of a run that is over is freed. -/
  | vacate (run : Nat)
  /-- One change of the wallet, the oldest that is owed. -/
  | pay

/-- What can be rehearsed. -/
class Stage (σ : Type) where
  desk : σ → Desk
  setDesk : σ → Desk → σ
  /-- The token of a run. -/
  mint : σ → Nat → String
  begin : σ → Moment → Nat → σ
  reply : σ → Moment → Nat → Reply → σ
  vacate : σ → Nat → σ
  pay : σ → σ

/-- An answer that arrives later. -/
structure Timer where
  dueMs : Nat
  run : Nat
  pending : Exchange.Pending

def Timer.job (t : Timer) : Job := .answer t.run t.pending

structure Rehearsal (σ : Type) where
  now : Moment
  exchange : Exchange
  timers : List Timer := []
  jobs : List Job := []
  /-- What was noted, with the time. -/
  journal : Array (Nat × Desk.Note) := #[]
  stage : σ

namespace Rehearsal

variable {σ : Type} [Stage σ]

/-- Sees to what a note asks for. -/
def heed (r : Rehearsal σ) (n : Desk.Note) : Rehearsal σ :=
  let r := { r with journal := r.journal.push (r.now.ms, n) }
  match n with
  | .admitted k _ => { r with jobs := r.jobs ++ [.setUp k] }
  | .owed _ => { r with jobs := r.jobs ++ [.pay] }
  | .ended k => { r with jobs := r.jobs ++ [.vacate k] }
  | .asked k request =>
    let (answer, exchange) := r.exchange.ask (Stage.mint r.stage k) request
    if answer.delayMs = 0 then
      { r with exchange := exchange, jobs := .answer k answer.answer :: r.jobs }
    else
      { r with exchange := exchange, timers := r.timers ++
        [{ dueMs := r.now.ms + answer.delayMs, run := k, pending := answer.answer }] }
  | _ => r

/-- Goes on with what was done on the stage. -/
def onStage (r : Rehearsal σ) (stage : σ) : Rehearsal σ :=
  let desk := Stage.desk stage
  desk.notes.foldl heed { r with stage := Stage.setDesk stage { desk with notes := [] } }

def perform (r : Rehearsal σ) : Job → Rehearsal σ
  | .setUp k => { r with jobs := r.jobs ++ [.begin k] }
  | .begin k => r.onStage (Stage.begin r.stage r.now k)
  | .answer k pending =>
    let (reply, exchange) := r.exchange.arrive pending
    { r with exchange := exchange }.onStage (Stage.reply r.stage r.now k reply)
  | .vacate k => r.onStage (Stage.vacate r.stage k)
  | .pay => r.onStage (Stage.pay r.stage)

/-- Does what is to be done, at most `fuel` things. -/
def work (fuel : Nat) (r : Rehearsal σ) : Rehearsal σ :=
  match fuel, r.jobs with
  | 0, _ => r
  | _ + 1, [] => r
  | fuel + 1, job :: jobs => work fuel ({ r with jobs := jobs }.perform job)

/-- Far more than there ever is to be done at one time. -/
def plenty : Nat := 1000000

/-- Does all there is to be done; then those who were woken look at the intake. -/
def settle (r : Rehearsal σ) : Rehearsal σ :=
  let r := r.work plenty
  { r with stage := Stage.setDesk r.stage (Stage.desk r.stage).lookAround }

/-- Does something on the stage and what follows from it. -/
def act (r : Rehearsal σ) (stage : σ) : Rehearsal σ := (r.onStage stage).settle

/-- The next moment at which an answer arrives. -/
def nextDue (r : Rehearsal σ) : Option Nat :=
  (r.timers.map (·.dueMs)).foldl (fun m due => some (m.elim due (min due))) none

/-- Moves on to a moment and takes in all answers that arrive then. -/
def arriveAt (r : Rehearsal σ) (due : Nat) : Rehearsal σ :=
  let (arrived, later) := r.timers.partition fun t => t.dueMs == due
  { r with
    now := { r.now with ms := due }
    timers := later
    jobs := r.jobs ++ arrived.map Timer.job }.settle

/-- Moves on until `isOver`, but not beyond `limit`. Every step takes at least one of the
milliseconds that `fuel` counts. -/
def moveOn (fuel : Nat) (r : Rehearsal σ) (limit : Nat) (isOver : σ → Bool) : Rehearsal σ :=
  let stop : Rehearsal σ := { r with now := { r.now with ms := limit } }
  match fuel with
  | 0 => r
  | fuel + 1 =>
    if isOver r.stage then r
    else
      match r.nextDue with
      | none => stop
      | some due => if limit < due then stop else moveOn fuel (r.arriveAt due) limit isOver

/-- Lets time pass until `isOver`, but not more than `ms`. -/
def waitFor (r : Rehearsal σ) (ms : Nat) (isOver : σ → Bool) : Rehearsal σ :=
  moveOn (ms + 2) r (r.now.ms + ms) isOver

def pass (r : Rehearsal σ) (ms : Nat) : Rehearsal σ := r.waitFor ms fun _ => false

/-- No answer arrives for a run any more. -/
def forget (r : Rehearsal σ) (k : Nat) : Rehearsal σ :=
  { r with timers := r.timers.filter fun t => t.run != k }

end Rehearsal

end LaunchDesk.Paper
