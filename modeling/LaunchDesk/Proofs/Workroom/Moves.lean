import LaunchDesk.Proofs.Desk.Control

/-!
# Moves in a workroom

A workroom with an overseer goes on in moves, one after the other in any order: someone starts or
stops the intake, the feed delivers, work ends, events are published, the overseer is let go. To the
control of its desk every move is one act or none.
-/

namespace LaunchDesk.Workroom

inductive Move
  | start (resuming : Bool)
  | stop (force : Bool)
  | deliver (stale : Bool) (opportunity : Opportunity)
  | finish (task : Nat) (ending : Intake.Ending)
  | publish (event : Event)
  | stopAll (reason : StopReason) (exclude : Option BotId)
  | wait (goal : Intake.Goal)
  | dismiss
  | letGo
  | failNext (text : String)
  | interruptNext (interruption : Interruption)

def after (w : Workroom) : Move → Workroom
  | .start resuming => (w.start resuming).1
  | .stop force => w.stop force
  | .deliver stale opportunity => w.deliver stale opportunity
  | .finish task ending => w.finish task ending
  | .publish event => (w.publish event).1
  | .stopAll reason exclude => w.stopAll reason exclude
  | .wait goal => w.wait goal
  | .dismiss => w.dismiss
  | .letGo => w.letGo
  | .failNext text => w.failNext text
  | .interruptNext interruption => w.interruptNext interruption

def work (max : Option Nat) (limits : Limits) (balance : Decimal) (moves : List Move) : Workroom :=
  moves.foldl after (create max (some (limits, balance)))

/-- What a move does to the control of the desk, if it does anything. -/
def act? (w : Workroom) : Move → Option Control.Act
  | .start resuming => some (.operate (.start resuming))
  | .stop force => some (.operate (.stop force))
  | .deliver stale opportunity =>
    if w.passesOn stale && w.hasIntake then some (.operate (.deliver opportunity)) else none
  | .finish task ending =>
    if w.unfinished.contains task then some (.operate (.finish task ending)) else none
  | .publish event => some (.ofEvent event)
  | .stopAll reason exclude =>
    if w.desk.overseer.isSome then
      some (.stop (exclude.elim (.all reason) (StopRequest.all reason).excluding))
    else none
  | .wait _ => none
  | .dismiss => some .dismiss
  | .letGo => none
  | .failNext text => some (.operate (.prepare (some text) w.desk.intake.feed.interruption))
  | .interruptNext interruption =>
    some (.operate (.prepare w.desk.intake.feed.nextFault (some interruption)))

/-! ## Who is there -/

/-- The bus of a workroom with an overseer. -/
def mannedBus : Bus Subscriber where
  next := 7
  trades := [(1, .recorder), (4, .overseer)]
  cycles := [(2, .recorder), (5, .overseer)]
  stops := [(3, .recorder), (6, .overseer)]

/-- The bus when the overseer has been let go. -/
def leftBus : Bus Subscriber where
  next := 7
  trades := [(1, .recorder)]
  cycles := [(2, .recorder)]
  stops := [(3, .recorder)]

/-- The overseer is there with its subscriptions, or it is gone with them. -/
structure Manned (w : Workroom) : Prop where
  heard : w.desk.intake.notes = []
  staff : (w.desk.overseer.isSome = true ∧ w.desk.bus = mannedBus ∧ w.overseerIds = [4, 5, 6]) ∨
    w.desk.overseer.isSome = false ∧ w.desk.bus = leftBus ∧ w.overseerIds = []

variable {w v : Workroom} {max : Option Nat} {limits : Limits} {balance : Decimal}

theorem Manned.attended (h : w.Manned) : w.desk.Attended where
  heard := h.heard
  told := by
    intro kind
    rcases h.staff with ⟨ho, hbus, -⟩ | ⟨ho, hbus, -⟩
    · rw [hbus, Desk.audience, ho]
      cases kind <;> rfl
    · rw [hbus, Desk.audience, ho]
      cases kind <;> rfl

theorem Manned.of_keeps (h : w.Manned) (hk : w.desk.Keeps v.desk)
    (hids : v.overseerIds = w.overseerIds) : v.Manned where
  heard := hk.heard
  staff := by
    rw [hk.bus, hk.overseer, hids]
    exact h.staff

theorem manned_create (max : Option Nat) (limits : Limits) (balance : Decimal) :
    (create max (some (limits, balance))).Manned := ⟨rfl, .inl ⟨rfl, rfl, rfl⟩⟩

/-! ## One move -/

theorem keeps_settle {d : Desk} (h : w.desk.Keeps d) : w.desk.Keeps (w.settle d).desk :=
  ⟨h.heard, h.bus, h.overseer⟩

theorem publish_step (h : w.Manned) (event : Event) :
    (w.publish event).1.desk.control = w.desk.control.after (.ofEvent event) ∧
      (w.publish event).1.Manned := by
  obtain ⟨hcontrol, hkeeps⟩ := Desk.publish_spec h.attended event
  exact ⟨hcontrol, h.of_keeps (keeps_settle hkeeps) rfl⟩

theorem operate_step (h : w.Manned) (op : Intake.Operation) :
    (w.settle (w.desk.updateIntake (w.desk.intake.perform op))).desk.control =
        w.desk.control.handle op ∧
      (w.settle (w.desk.updateIntake (w.desk.intake.perform op))).Manned :=
  ⟨Desk.control_updateIntake w.desk op,
    h.of_keeps (keeps_settle ((Desk.Keeps.refl h.heard).updateIntake _)) rfl⟩

theorem prepare_control (h : w.Manned) (fault : Option String)
    (interruption : Option Interruption) :
    { w.desk with intake := w.desk.intake.perform (.prepare fault interruption) }.control =
      w.desk.control.handle (.prepare fault interruption) := by
  have hnotes : (w.desk.intake.perform (.prepare fault interruption)).notes = [] := h.heard
  simp only [Control.handle, Desk.control, Intake.handle, Intake.cleared, hnotes]
  rw [Intake.admissions_nil, List.map_nil, List.append_nil, ← hnotes]

theorem dismiss_step (h : w.Manned) :
    w.dismiss.desk.control = w.desk.control.after .dismiss ∧ w.dismiss.Manned := by
  unfold dismiss
  rcases h.staff with ⟨-, hbus, hids⟩ | ⟨-, hbus, hids⟩
  · rw [hids]
    refine ⟨rfl, h.heard, .inr ⟨rfl, ?_, rfl⟩⟩
    change (((w.desk.bus.unsubscribe 4).2.unsubscribe 5).2.unsubscribe 6).2 = leftBus
    rw [hbus]
    rfl
  · rw [hids]
    exact ⟨rfl, h.heard, .inr ⟨rfl, hbus, rfl⟩⟩

theorem stopAll_step (h : w.Manned) (reason : StopReason) (exclude : Option BotId) :
    (w.settle (w.desk.stopAll reason exclude)).desk.control = w.desk.control.after
        (.stop (exclude.elim (.all reason) (StopRequest.all reason).excluding)) ∧
      (w.settle (w.desk.stopAll reason exclude)).Manned := by
  have hlogged : ∀ line, w.desk.Keeps (w.desk.log line) := fun _ => (Desk.Keeps.refl h.heard).note _
  obtain ⟨hcontrol, hkeeps⟩ := Desk.publishStop_spec ((hlogged _).attended h.attended)
    (exclude.elim (.all reason) (StopRequest.all reason).excluding)
  rw [Desk.control_log] at hcontrol
  exact ⟨hcontrol, h.of_keeps (keeps_settle ((hlogged _).trans hkeeps)) rfl⟩

theorem after_step (h : w.Manned) (move : Move) :
    (w.after move).desk.control = (w.act? move).elim w.desk.control w.desk.control.after ∧
      (w.after move).Manned := by
  cases move with
  | start resuming => exact operate_step h (.start resuming)
  | stop force => exact operate_step h (.stop force)
  | deliver stale opportunity =>
    simp only [after, act?, deliver]
    split
    · exact operate_step h (.deliver opportunity)
    · exact ⟨rfl, h⟩
  | finish task ending =>
    simp only [after, act?, finish]
    split
    · exact operate_step (w := { w with unfinished := w.unfinished.erase task }) ⟨h.heard, h.staff⟩
        (.finish task ending)
    · exact ⟨rfl, h⟩
  | publish event => exact publish_step h event
  | stopAll reason exclude =>
    simp only [after, act?, stopAll]
    split
    · exact stopAll_step h reason exclude
    · exact ⟨rfl, h⟩
  | wait goal => exact ⟨rfl, h.heard, h.staff⟩
  | dismiss => exact dismiss_step h
  | letGo => exact ⟨rfl, h.heard, h.staff⟩
  | failNext text => exact ⟨prepare_control h _ _, h.heard, h.staff⟩
  | interruptNext interruption => exact ⟨prepare_control h _ _, h.heard, h.staff⟩

/-- A move that does something to the control of the desk, and what. -/
inductive Acts (w : Workroom) : Move → Control.Act → Prop
  | start (resuming : Bool) : Acts w (.start resuming) (.operate (.start resuming))
  | stop (force : Bool) : Acts w (.stop force) (.operate (.stop force))
  | deliver (stale : Bool) (opportunity : Opportunity) :
    Acts w (.deliver stale opportunity) (.operate (.deliver opportunity))
  | finish (task : Nat) (ending : Intake.Ending) :
    Acts w (.finish task ending) (.operate (.finish task ending))
  | publish (event : Event) : Acts w (.publish event) (.ofEvent event)
  | stopAll (reason : StopReason) (exclude : Option BotId) : Acts w (.stopAll reason exclude)
      (.stop (exclude.elim (.all reason) (StopRequest.all reason).excluding))
  | dismiss : Acts w .dismiss .dismiss
  | failNext (text : String) : Acts w (.failNext text)
      (.operate (.prepare (some text) w.desk.intake.feed.interruption))
  | interruptNext (interruption : Interruption) : Acts w (.interruptNext interruption)
      (.operate (.prepare w.desk.intake.feed.nextFault (some interruption)))

theorem acts_of_act? {act : Control.Act} {move : Move} (hact : w.act? move = some act) :
    w.Acts move act := by
  cases move <;>
    simp only [act?, Option.ite_none_right_eq_some, Option.some.injEq, reduceCtorEq] at hact
  case deliver stale opportunity =>
    obtain ⟨-, rfl⟩ := hact
    exact .deliver stale opportunity
  case finish task ending =>
    obtain ⟨-, rfl⟩ := hact
    exact .finish task ending
  case stopAll reason exclude =>
    obtain ⟨-, rfl⟩ := hact
    exact .stopAll reason exclude
  all_goals
    subst hact
    constructor

theorem control_cases (h : w.Manned) (move : Move) :
    (w.after move).desk.control = w.desk.control ∨
      ∃ act, w.Acts move act ∧ (w.after move).desk.control = w.desk.control.after act := by
  have hcontrol := (after_step h move).1
  cases hact : w.act? move with
  | none =>
    rw [hact] at hcontrol
    exact .inl hcontrol
  | some act =>
    rw [hact] at hcontrol
    exact .inr ⟨act, acts_of_act? hact, hcontrol⟩

theorem work_append (moves more : List Move) :
    work max limits balance (moves ++ more) = more.foldl after (work max limits balance moves) :=
  List.foldl_append

theorem manned_work (moves : List Move) : (work max limits balance moves).Manned := by
  induction moves using List.reverseRecOn with
  | nil => exact manned_create max limits balance
  | append_singleton moves move ih =>
    rw [work_append]
    exact (after_step ih move).2

end LaunchDesk.Workroom
