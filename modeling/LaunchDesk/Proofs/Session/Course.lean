import LaunchDesk.Session
import LaunchDesk.Proofs.Desk.Follows
import LaunchDesk.Proofs.Session.Chronicle

/-!
# The course of a session

A session that someone has goes on in moves, one after the other in any order: the feed delivers,
runs begin and get replies, places are freed, the wallet is changed, and someone starts, stops,
waits or shuts down. Nobody but the runs and the overseer publishes anything. Beside the session we
keep the chronicle of what its runs publish.
-/

namespace LaunchDesk.Session

open Run

inductive Move
  | start (resuming : Bool)
  | stop (force : Bool)
  | deliver (stale : Bool) (opportunity : Opportunity)
  /-- The feed makes up its mind about the next attempts to attach to it. -/
  | failNext (text : String)
  | interruptNext (interruption : Interruption)
  | begin (now : Moment) (run : Nat)
  | reply (now : Moment) (run : Nat) (reply : Reply)
  | vacate (run : Nat)
  /-- One of the changes that are owed is made, whichever it is. -/
  | pay (change : Nat)
  | wait (goal : Intake.Goal)
  | beginShutdown
  | endShutdown

def after (s : Session) : Move → Session
  | .start resuming => (s.start resuming).1
  | .stop force => s.stop force
  | .deliver stale opportunity => s.deliver stale opportunity
  | .failNext text => s.failNext text
  | .interruptNext interruption => { s with desk := s.desk.interruptNext interruption }
  | .begin now k => s.begin now k
  | .reply now k reply => s.reply now k reply
  | .vacate k => s.vacate k
  | .pay i => s.pay i
  | .wait goal => s.wait goal
  | .beginShutdown => s.beginShutdown
  | .endShutdown => s.endShutdown

/-- The desk when the log has said that a run begins. -/
def heralded (s : Session) (k : Nat) (opportunity : Opportunity) : Desk :=
  s.desk.log (.info "Starting state machine"
    [("bot_id", (s.plan k opportunity).botId.text), ("task_index", toString k),
      ("mint", opportunity.mint)])

/-- What the runs publish in a move. -/
def published (s : Session) : Move → Chronicle
  | .begin now k =>
    match s.seats[k]? with
    | some (.waiting opportunity) =>
      Chronicle.entries k
        (announced ((s.heralded k opportunity).begun k (s.plan k opportunity) now).2)
    | _ => []
  | .reply now k reply =>
    match s.seats[k]? with
    | some (.working t) =>
      Chronicle.entries k
        (announced (t.run.resume t.plan (s.desk.machines t.machine).cancelled now reply).2)
    | _ => []
  | _ => []

/-- A reply to a buy does not bring a sell, nor the other way round. -/
def fits (s : Session) : Move → Bool
  | .reply _ k reply =>
    match s.seats[k]? with
    | some (.working t) => t.run.phase.takes reply
    | _ => true
  | _ => true

def Seat.hasPanicked : Seat → Bool
  | .leaving .panicked => true
  | _ => false

/-- All replies fit, and no run panics. -/
def goesWell (s : Session) : List Move → Bool
  | [] => true
  | move :: moves =>
    s.fits move && !(s.after move).seats.any Seat.hasPanicked && (s.after move).goesWell moves

def proceedBy (p : Session × Chronicle) (move : Move) : Session × Chronicle :=
  (p.1.after move, p.2 ++ p.1.published move)

def course (setup : Setup) (wallet : SimulatedWallet) (moves : List Move) : Session × Chronicle :=
  moves.foldl proceedBy (create setup wallet, [])

end LaunchDesk.Session
