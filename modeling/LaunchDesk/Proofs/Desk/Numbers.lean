import LaunchDesk.Proofs.Desk.Follows

/-!
# The numbers of runs

A desk notes what runs ask for, by their numbers. The numbers are names and nothing more: whatever
is done at a desk comes to the same when the runs are numbered differently.
-/

namespace LaunchDesk

namespace Desk

/-- The same note, with the run under another number. -/
def Note.renumbered (f : Nat → Nat) : Note → Note
  | .asked run request => .asked (f run) request
  | .ended run => .ended (f run)
  | n => n

/-- The run that a note is about, if it says so. -/
def Note.run? : Note → Option Nat
  | .asked run _ => some run
  | .ended run => some run
  | _ => none

theorem Note.renumbered_of_none {f : Nat → Nat} {n : Note} (h : n.run? = none) :
    n.renumbered f = n := by
  cases n with
  | asked run request => cases h
  | ended run => cases h
  | _ => rfl

/-- The same desk, with the runs in its notes under other numbers. -/
def renumbered (f : Nat → Nat) (d : Desk) : Desk :=
  { d with notes := d.notes.map (Note.renumbered f) }

variable (f : Nat → Nat) (d : Desk)

@[simp]
theorem renumbered_overseer : (d.renumbered f).overseer = d.overseer := rfl

@[simp]
theorem renumbered_intake : (d.renumbered f).intake = d.intake := rfl

theorem renumbered_appointed (o : Option Overseer) :
    { d.renumbered f with overseer := o } = ({ d with overseer := o }).renumbered f := rfl

theorem renumbered_note (n : Note) :
    (d.renumbered f).note (n.renumbered f) = (d.note n).renumbered f := by
  simp [renumbered, note]

@[simp]
theorem renumbered_log (line : Log.Line) : (d.renumbered f).log line = (d.log line).renumbered f :=
  renumbered_note f d (.log line)

@[simp]
theorem renumbered_recorded (event : Event) :
    (d.renumbered f).note (.recorded event) = (d.note (.recorded event)).renumbered f :=
  renumbered_note f d (.recorded event)

@[simp]
theorem renumbered_owed (amount : Decimal) :
    (d.renumbered f).note (.owed amount) = (d.note (.owed amount)).renumbered f :=
  renumbered_note f d (.owed amount)

@[simp]
theorem renumbered_updateMachine (m : Nat) (change : Machine → Machine) :
    (d.renumbered f).updateMachine m change = (d.updateMachine m change).renumbered f := rfl

theorem renumbered_foldl {α : Type} {step : Desk → α → Desk}
    (hstep : ∀ d x, step (d.renumbered f) x = (step d x).renumbered f) (xs : List α) :
    xs.foldl step (d.renumbered f) = (xs.foldl step d).renumbered f := by
  induction xs generalizing d with
  | nil => rfl
  | cons x xs ih => rw [List.foldl_cons, List.foldl_cons, hstep, ih]

theorem renumbered_hear (n : Intake.Note) :
    (d.renumbered f).hear n = (d.hear n).renumbered f := by
  cases n with
  | log line => exact renumbered_log f d line
  | admitted index opportunity => exact renumbered_note f d (.admitted index opportunity)
  | changed => rfl

@[simp]
theorem renumbered_updateIntake (i : Intake) :
    (d.renumbered f).updateIntake i = (d.updateIntake i).renumbered f :=
  renumbered_foldl f { d with intake := { i with notes := [] } } (renumbered_hear f) i.notes

@[simp]
theorem renumbered_cancel (m : Nat) : (d.renumbered f).cancel m = (d.cancel m).renumbered f := by
  simp only [cancel, renumbered_updateMachine, renumbered_log]
  exact (apply_ite (renumbered f) ..).symm

/-! ## Stop requests -/

theorem renumbered_tellRun (request : StopRequest) (m : Nat) (bot : BotId) :
    (d.renumbered f).tellRun request m bot = (d.tellRun request m bot).renumbered f := by
  simp only [tellRun, renumbered_updateMachine, renumbered_log]
  exact (apply_ite (renumbered f) ..).symm

theorem renumbered_tellOverseer (request : StopRequest) :
    (d.renumbered f).tellOverseer request = (d.tellOverseer request).renumbered f := by
  simp only [tellOverseer, renumbered_overseer]
  cases d.overseer with
  | none => rfl
  | some o =>
    simp only [renumbered_appointed, renumbered_log]
    exact renumbered_updateIntake f _ _

@[simp]
theorem renumbered_publishStop (request : StopRequest) :
    (d.renumbered f).publishStop request = (d.publishStop request).renumbered f := by
  unfold publishStop
  rw [renumbered_log]
  refine renumbered_foldl f _ (fun d e => ?_) d.bus.stops
  cases e.2 with
  | recorder => exact renumbered_recorded f d _
  | overseer => exact renumbered_tellOverseer f d request
  | wallet => rfl
  | run m bot => exact renumbered_tellRun f d request m bot

/-! ## Trades and finished runs -/

theorem renumbered_obey (reaction : Overseer.Reaction) :
    (d.renumbered f).obey reaction = (d.obey reaction).renumbered f := by
  cases reaction with
  | log line => exact renumbered_log f d line
  | request request => exact renumbered_publishStop f d request
  | startIntake =>
    simp only [obey, renumbered_intake]
    split <;> simp

theorem renumbered_consult (next : Overseer × List Overseer.Reaction) :
    (d.renumbered f).consult next = (d.consult next).renumbered f :=
  renumbered_foldl f { d with overseer := some next.1 } (renumbered_obey f) next.2

theorem renumbered_tellTrade (bot : BotId) (fill : Fill) (s : Subscriber) :
    tellTrade bot fill (d.renumbered f) s = (tellTrade bot fill d s).map (renumbered f) := by
  cases s with
  | recorder => exact congrArg Except.ok (renumbered_recorded f d _)
  | overseer =>
    simp only [tellTrade, renumbered_overseer]
    cases d.overseer with
    | none => rfl
    | some o =>
      simp only
      cases o.onTrade bot fill with
      | error fault => rfl
      | ok next => exact congrArg Except.ok (renumbered_consult f d next)
  | wallet => exact congrArg Except.ok (renumbered_owed f d _)
  | run m bot => rfl

theorem renumbered_tellTrades (bot : BotId) (fill : Fill)
    (entries : List (SubscriptionId × Subscriber)) :
    tellTrades bot fill (d.renumbered f) entries =
      ((tellTrades bot fill d entries).1.renumbered f, (tellTrades bot fill d entries).2) := by
  induction entries generalizing d with
  | nil => rfl
  | cons e entries ih =>
    rw [tellTrades, tellTrades, renumbered_tellTrade]
    cases tellTrade bot fill d e.2 with
    | ok e => exact ih e
    | error fault => rfl

theorem renumbered_publishCycle (bot : BotId) (outcome : Outcome) :
    (d.renumbered f).publishCycle bot outcome = (d.publishCycle bot outcome).renumbered f := by
  unfold publishCycle
  rw [renumbered_log]
  refine renumbered_foldl f _ (fun d e => ?_) d.bus.cycles
  cases e.2 with
  | recorder => exact renumbered_recorded f d _
  | overseer =>
    simp only [tellCycle, renumbered_overseer]
    cases d.overseer with
    | none => rfl
    | some o => exact renumbered_consult f d _
  | wallet => rfl
  | run m bot => rfl

theorem renumbered_publish (event : Event) :
    (d.renumbered f).publish event = ((d.publish event).1.renumbered f, (d.publish event).2) := by
  cases event with
  | trade bot fill =>
    simp only [publish, publishTrade, renumbered_log]
    exact renumbered_tellTrades f _ bot fill d.bus.trades
  | cycle bot outcome => simp only [publish, renumbered_publishCycle]
  | stop request => simp only [publish, renumbered_publishStop]

/-! ## Runs -/

theorem renumbered_carryOut (notices : List Run.Notice) :
    (d.renumbered f).carryOut notices =
      ((d.carryOut notices).1.renumbered f, (d.carryOut notices).2) := by
  induction notices generalizing d with
  | nil => rfl
  | cons notice notices ih =>
    cases notice with
    | log line => rw [carryOut, carryOut, renumbered_log, ih]
    | publish event =>
      rw [carryOut, carryOut, renumbered_publish]
      rcases d.publish event with ⟨e, _ | fault⟩
      · exact ih e
      · rfl

@[simp]
theorem renumbered_leave (t : Trader) :
    (d.renumbered f).leave t = (d.leave t).renumbered f := rfl

/-- A run goes on in the same way under another number. -/
theorem renumbered_proceed (who : Nat) (t : Trader) (p : Run.Progress) :
    (d.renumbered f).proceed (f who) t p =
      ((d.proceed who t p).1.renumbered f, (d.proceed who t p).2) := by
  simp only [proceed, goOn, renumbered_carryOut]
  split
  · next request _ => exact congrArg (·, _) (renumbered_note f _ (.asked who request))
  · rfl

theorem start?_of_free {d : Desk} {m : Nat} (h : (d.machines m).running = false) (who : Nat)
    (plan : Plan) (now : Moment) :
    d.start? who m plan now = some ((d.manned m plan.botId).proceed who
      ⟨m, plan, d.bus.next, (d.begun m plan now).1⟩ (d.begun m plan now)) := by
  rw [start?, h]
  rfl

theorem renumbered_start? (who m : Nat) (plan : Plan) (now : Moment) :
    (d.renumbered f).start? (f who) m plan now =
      (d.start? who m plan now).map fun (e, t) => (e.renumbered f, t) := by
  have hsame : ((d.renumbered f).machines m).running = (d.machines m).running := rfl
  cases hrunning : (d.machines m).running with
  | true => rw [start?, start?, if_pos hrunning, if_pos (hsame.trans hrunning), Option.map_none]
  | false =>
    rw [start?_of_free hrunning, start?_of_free (hsame.trans hrunning), Option.map_some]
    exact congrArg some (renumbered_proceed f (d.manned m plan.botId) who _ _)

theorem renumbered_resume (who : Nat) (t : Trader) (now : Moment) (reply : Reply) :
    (d.renumbered f).resume (f who) t now reply =
      ((d.resume who t now reply).1.renumbered f, (d.resume who t now reply).2) :=
  renumbered_proceed f d who t _

end Desk

end LaunchDesk
