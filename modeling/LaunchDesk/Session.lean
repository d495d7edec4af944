import LaunchDesk.Desk.Trader
import LaunchDesk.Wallet

/-!
# Sessions

A session is a desk at work: every opportunity that the intake admits gets a seat, a run of its own
on a machine of its own, and gives the place back when the run is over. If trading is simulated,
each trade also changes the wallet, a little later than it is published.

What happens in a session is split into steps that the world may take in many orders: an opportunity
comes in, a run begins, a run gets a reply, a seat is vacated, the wallet is changed.
-/

namespace LaunchDesk

namespace Session

/-- The place of an admitted opportunity. -/
inductive Seat
  /-- The run has not begun. -/
  | waiting (opportunity : Opportunity)
  | working (trader : Trader)
  /-- The run is over, and its place is not free yet. -/
  | leaving (ending : Intake.Ending)
  | gone

/-- What a session is made of. -/
structure Setup where
  settings : Settings
  classify : Classifier
  /-- The strategy for each opportunity, by its number. -/
  strategies : Nat → Strategy
  /-- The name of the run for each opportunity. -/
  names : Nat → BotId
  /-- What reading the balance of the wallet fails with. -/
  balanceFault : Option String := none
  /-- What changing the wallet fails with. -/
  walletFault : Option String := none

end Session

structure Session where
  setup : Session.Setup
  desk : Desk
  /-- The seats in the order of admission. -/
  seats : List Session.Seat := []
  wallet : SimulatedWallet
  /-- The changes of the wallet that are still to be made, the oldest first. -/
  owed : List Decimal := []
  /-- Whether someone still has the session. -/
  held : Bool := true
  overseerIds : List SubscriptionId := []
  walletId : Option SubscriptionId := none

namespace Session

/-! ## Opening and closing -/

/-- What the log says when a session is ready. -/
def readyLine (settings : Settings) (balance : Decimal) : Log.Line :=
  .info "Trading session ready"
    [("balance", balance.text),
      ("max_concurrent",
        Log.optional (fun n => toString n.toNat) settings.admission.maxConcurrent),
      ("max_open_positions",
        Log.optional (fun n => toString n.toNat) settings.limits.maxOpenPositions),
      ("max_full_trades",
        Log.optional (fun n => toString n.toNat) settings.limits.maxFullTrades),
      ("min_wallet_balance", Log.optional Decimal.text settings.limits.minWalletBalance),
      ("simulate", toString settings.trading.simulate)]

/-- A session whose overseer starts from the balance of the wallet. -/
def create (setup : Setup) (wallet : SimulatedWallet) : Session :=
  let settings := setup.settings
  let desk : Desk :=
    { intake := { maxConcurrent := settings.admission.maxConcurrent.map UInt64.toNat } }
  let (overseerIds, desk) := desk.appoint settings.limits wallet.balance
  let (walletId, desk) :=
    if settings.trading.simulate then
      let (id, desk) := desk.subscribe .trade .wallet
      (some id, desk)
    else (none, desk)
  { setup := setup
    desk := desk.log (readyLine settings wallet.balance)
    wallet := wallet
    overseerIds := overseerIds
    walletId := walletId }

/-- Opens a session if its settings hold and the wallet can be read. -/
def «open» (setup : Setup) (wallet : SimulatedWallet) : Except Fault Session := do
  setup.settings.validate
  if let some text := setup.balanceFault then throw (.internal text)
  return create setup wallet

/-- Gives the session up. Runs in progress go on, without an overseer. -/
def letGo (s : Session) : Session :=
  let desk := s.walletId.elim s.desk s.desk.unsubscribe
  { s with desk := desk.dismiss s.overseerIds, held := false, overseerIds := [], walletId := none }

/-! ## Steps -/

/-- What a note adds to the session: a seat, or a change of the wallet. -/
def hear (s : Session) : Desk.Note → Session
  | .admitted _ opportunity => { s with seats := s.seats ++ [.waiting opportunity] }
  | .owed amount => { s with owed := s.owed ++ [amount] }
  | _ => s

/-- Goes on with the desk as it is after something was done. -/
def settle (s : Session) (desk : Desk) : Session :=
  (desk.notes.drop s.desk.notes.length).foldl hear { s with desk := desk }

def setSeat (s : Session) (k : Nat) (seat : Seat) : Session :=
  { s with seats := s.seats.set k seat }

/-- Whether the intake is still there. -/
def hasIntake (s : Session) : Bool := s.held || s.desk.intake.inProgress != 0

/-- Whether the feed passes an opportunity on. -/
def passesOn (s : Session) (stale : Bool) : Bool :=
  if stale then s.desk.intake.feed.everAttached else s.desk.intake.feed.attached

/-- The feed delivers an opportunity; without an intake nothing comes of it. -/
def deliver (s : Session) (stale : Bool) (opportunity : Opportunity) : Session :=
  if s.passesOn stale && s.hasIntake then s.settle (s.desk.deliver opportunity) else s

def start (s : Session) (resuming : Bool) : Session × Option Fault :=
  let (desk, fault) := s.desk.startIntake resuming
  (s.settle desk, fault)

def stop (s : Session) (force : Bool) : Session := s.settle (s.desk.stopIntake force)

/-- Sets what the next attempt to attach to the feed fails with. -/
def failNext (s : Session) (text : String) : Session := { s with desk := s.desk.failNext text }

/-- Someone outside publishes an event. -/
def publish (s : Session) (event : Event) : Session × Option Decimal.Fault :=
  let (desk, fault) := s.desk.publish event
  (s.settle desk, fault)

def plan (s : Session) (k : Nat) (opportunity : Opportunity) : Plan :=
  { settings := s.setup.settings.trading
    botId := s.setup.names k
    opportunity := opportunity
    strategy := s.setup.strategies k
    classify := s.setup.classify }

/-- What the log says about the outcome of a run. -/
def outcomeLine : Outcome → Log.Line
  | .completed t =>
    .info "Round trip completed"
      [("bot_id", t.botId.text), ("mint", t.mint), ("pnl", t.realizedPnl.text),
        ("reason", t.sellReason)]
  | .exited d =>
    .info "Exited without a position"
      [("bot_id", d.botId.text), ("mint", d.mint), ("reason", d.reason.shown)]

/-- Without funds for one run there are none for the others: the overseer stops them all. -/
def stopOthers (d : Desk) (bot : BotId) : Desk :=
  if d.overseer.isSome then d.stopAll .insufficientFunds (some bot)
  else d.log (.warn "Lifecycle manager gone, cannot stop others" [("bot_id", bot.text)])

/-- What follows from the end of a run, and how the work on its opportunity ended. -/
def conclude (d : Desk) (t : Trader) : Option (Desk × Intake.Ending) :=
  match t.run.phase with
  | .ended (.ok outcome) => some (d.log (outcomeLine outcome), .finished)
  | .ended (.error fault) =>
    some (if fault.fatalKind? = some .insufficientFunds then stopOthers d t.plan.botId else d,
      .failed fault.message)
  | .crashed _ => some (d, .panicked)
  | _ => none

/-- Goes on with a run and the desk as they are after the run did something. -/
def proceed (s : Session) (k : Nat) (desk : Desk) (t : Trader) : Session :=
  match conclude desk t with
  | none => (s.settle desk).setSeat k (.working t)
  | some (desk, ending) => (s.settle (desk.note (.ended k))).setSeat k (.leaving ending)

/-- The run for an admitted opportunity begins. -/
def begin (s : Session) (now : Moment) (k : Nat) : Session :=
  match s.seats[k]? with
  | some (.waiting opportunity) =>
    let plan := s.plan k opportunity
    let desk := s.desk.log (.info "Starting state machine"
      [("bot_id", plan.botId.text), ("task_index", toString k), ("mint", opportunity.mint)])
    match desk.start? k k plan now with
    | some (desk, trader) => s.proceed k desk trader
    | none =>
      (s.settle (desk.note (.ended k))).setSeat k (.leaving (.failed Fault.alreadyRunning.message))
  | _ => s

/-- A run gets a reply. -/
def reply (s : Session) (now : Moment) (k : Nat) (reply : Reply) : Session :=
  match s.seats[k]? with
  | some (.working trader) =>
    let (desk, trader) := s.desk.resume k trader now reply
    s.proceed k desk trader
  | _ => s

/-- The place of a run that is over is freed. -/
def vacate (s : Session) (k : Nat) : Session :=
  match s.seats[k]? with
  | some (.leaving ending) => (s.settle (s.desk.finish k ending)).setSeat k .gone
  | _ => s

/-- Makes one of the changes of the wallet that are owed. One that overflows is lost. -/
def pay (s : Session) (i : Nat) : Session :=
  match s.owed[i]? with
  | none => s
  | some amount =>
    let s := { s with owed := s.owed.eraseIdx i }
    match s.setup.walletFault with
    | some text =>
      { s with desk := s.desk.log (.error "Failed to update simulated wallet"
          [("error", (Fault.internal text).message)]) }
    | none =>
      match s.wallet.applyDelta amount with
      | .ok (wallet, line) => { s with wallet := wallet, desk := s.desk.log line }
      | .error _ => s

/-! ## Waiting and shutting down -/

def wait (s : Session) (goal : Intake.Goal) : Session := { s with desk := s.desk.wait goal }

/-- Asks everything to stop and begins to wait for it. -/
def beginShutdown (s : Session) : Session :=
  (s.settle (s.desk.stopAll .shutdown none)).wait .idle

/-- What the log says when everything has stopped. -/
def endShutdown (s : Session) : Session :=
  { s with desk := s.desk.log (.info "Trading session shut down"
      [("counters", (s.desk.overseer.map Overseer.shownCounters).getD "")]) }

/-- Whether the waiter with this number has what it waits for. -/
def isOver (s : Session) (waiter : Nat) : Bool :=
  (s.desk.waiters[waiter]?).elim false Waiter.finished

end Session

end LaunchDesk
