import LaunchDesk.Workroom
import LaunchDesk.Proofs.Desk.Follows
import LaunchDesk.Proofs.Intake.Attachment

/-!
# The control of the intake

Whether the intake listens is up to the overseer and the intake itself; recorders, machines and
waiters have no say in it. `Control` is that part of a desk, with the stop requests that a recorder
was told of and the numbers that were given out. What a desk does to its control is `Control.after`,
as long as a recorder and the overseer are told of every event.
-/

namespace LaunchDesk

structure Control where
  overseer : Option Overseer
  intake : Intake
  requests : List StopRequest := []
  admissions : List Nat := []

namespace Control

def handle (c : Control) (op : Intake.Operation) : Control :=
  { c with
    intake := c.intake.handle op
    admissions := c.admissions ++ (Intake.admissions (c.intake.perform op).notes).map (·.1) }

/-- The overseer heeds a stop request. -/
def heed (c : Control) (request : StopRequest) : Control :=
  match c.overseer with
  | none => c
  | some o => { c with overseer := some (o.onStop request).1 }.handle (.stop true)

def publish (c : Control) (request : StopRequest) : Control :=
  { c with requests := c.requests ++ [request] }.heed request

def obey (c : Control) : Overseer.Reaction → Control
  | .log _ => c
  | .request request => c.publish request
  | .startIntake => c.handle (.start true)

def consult (c : Control) (next : Overseer × List Overseer.Reaction) : Control :=
  next.2.foldl obey { c with overseer := some next.1 }

inductive Act
  | operate (op : Intake.Operation)
  | stop (request : StopRequest)
  | trade (bot : BotId) (fill : Fill)
  | cycle (bot : BotId) (outcome : Outcome)
  /-- The overseer is let go. -/
  | dismiss

def Act.ofEvent : Event → Act
  | .trade bot fill => .trade bot fill
  | .cycle bot outcome => .cycle bot outcome
  | .stop request => .stop request

def after (c : Control) : Act → Control
  | .operate op => c.handle op
  | .stop request => c.publish request
  | .trade bot fill =>
    match c.overseer with
    | none => c
    | some o =>
      match o.onTrade bot fill with
      | .ok next => c.consult next
      | .error _ => c
  | .cycle bot outcome =>
    match c.overseer with
    | none => c
    | some o => c.consult (o.onCycle bot outcome)
  | .dismiss => { c with overseer := none }

end Control

namespace Desk

variable {d e f : Desk}

/-- The stop requests that notes say a recorder was told of. -/
def requests (notes : List Note) : List StopRequest :=
  notes.filterMap fun
    | .recorded (.stop request) => some request
    | _ => none

def control (d : Desk) : Control where
  overseer := d.overseer
  intake := d.intake
  requests := requests d.notes
  admissions := Workroom.admissions d.notes

/-! ## Notes -/

theorem requests_append (a b : List Note) : requests (a ++ b) = requests a ++ requests b := by
  simp [requests]

theorem admissions_append (a b : List Note) :
    Workroom.admissions (a ++ b) = Workroom.admissions a ++ Workroom.admissions b := by
  simp [Workroom.admissions]

theorem control_note (d : Desk) (n : Note) :
    (d.note n).control = { d.control with
      requests := d.control.requests ++ requests [n]
      admissions := d.control.admissions ++ Workroom.admissions [n] } := by
  simp only [control, note, requests_append, admissions_append]

@[simp] theorem control_log (d : Desk) (line : Log.Line) : (d.log line).control = d.control := by
  rw [log, control_note]
  simp [requests, Workroom.admissions]

@[simp] theorem control_recorded_stop (d : Desk) (request : StopRequest) :
    (d.note (.recorded (.stop request))).control =
      { d.control with requests := d.control.requests ++ [request] } := by
  rw [control_note]
  simp [requests, Workroom.admissions]

theorem relay_requests (notes : List Intake.Note) : requests (notes.filterMap relay?) = [] := by
  induction notes with
  | nil => rfl
  | cons n notes ih => cases n <;> exact ih

theorem relay_admissions (notes : List Intake.Note) :
    Workroom.admissions (notes.filterMap relay?) = (Intake.admissions notes).map (·.1) := by
  induction notes with
  | nil => rfl
  | cons n notes ih =>
    cases n with
    | admitted index opportunity => exact congrArg (index :: ·) ih
    | _ => exact ih

theorem updateIntake_eq (d : Desk) (i : Intake) :
    (d.updateIntake i).intake = i.cleared ∧ (d.updateIntake i).overseer = d.overseer ∧
      (d.updateIntake i).bus = d.bus ∧
      (d.updateIntake i).notes = d.notes ++ i.notes.filterMap relay? := by
  obtain ⟨hnotes, hintake, hbus, hoverseer⟩ :=
    foldl_hear i.notes { d with intake := { i with notes := [] } }
  exact ⟨hintake, hoverseer, hbus, hnotes⟩

theorem control_updateIntake (d : Desk) (op : Intake.Operation) :
    (d.updateIntake (d.intake.perform op)).control = d.control.handle op := by
  obtain ⟨hintake, hoverseer, -, hnotes⟩ := updateIntake_eq d (d.intake.perform op)
  simp only [control, hintake, hoverseer, hnotes, requests_append, admissions_append,
    relay_requests, relay_admissions, List.append_nil]
  rfl

/-! ## Who is told of an event -/

/-- A recorder comes first and the overseer, if there is one, after it. -/
def audience (o : Option Overseer) : List Subscriber :=
  .recorder :: if o.isSome then [.overseer] else []

structure Attended (d : Desk) : Prop where
  heard : d.intake.notes = []
  told : ∀ kind, (d.bus.subscribed kind).map (·.2) = audience d.overseer

/-- Everybody stays, and the notes of the intake have been taken over. -/
structure Keeps (d e : Desk) : Prop where
  heard : e.intake.notes = []
  bus : e.bus = d.bus
  overseer : e.overseer.isSome = d.overseer.isSome

theorem Keeps.trans (h : Keeps d e) (h' : Keeps e f) : Keeps d f where
  heard := h'.heard
  bus := h'.bus.trans h.bus
  overseer := h'.overseer.trans h.overseer

theorem Keeps.attended (h : Keeps d e) (hd : d.Attended) : e.Attended where
  heard := h.heard
  told := by
    intro kind
    rw [h.bus, hd.told, audience, audience, h.overseer]

theorem Keeps.refl (hd : d.intake.notes = []) : Keeps d d := ⟨hd, rfl, rfl⟩

theorem Keeps.note (h : Keeps d e) (n : Note) : Keeps d (e.note n) := ⟨h.heard, h.bus, h.overseer⟩

theorem Keeps.updateIntake (h : Keeps d e) (i : Intake) : Keeps d (e.updateIntake i) := by
  obtain ⟨hintake, hoverseer, hbus, -⟩ := updateIntake_eq e i
  exact ⟨by rw [hintake]; rfl, hbus.trans h.bus, by rw [hoverseer, h.overseer]⟩

theorem keeps_overseer {o : Overseer} (hd : d.intake.notes = []) (ho : d.overseer = some o)
    (p : Overseer) : Keeps d { d with overseer := some p } := ⟨hd, rfl, by rw [ho]; rfl⟩

/-- Either the overseer is there and the last to be told, or it is not there at all. -/
theorem entries_of_told {entries : List (SubscriptionId × Subscriber)}
    (h : entries.map (·.2) = audience d.overseer) :
    (∃ a b o, d.overseer = some o ∧ entries = [(a, .recorder), (b, .overseer)]) ∨
      ∃ a, d.overseer = none ∧ entries = [(a, .recorder)] := by
  cases ho : d.overseer with
  | some o =>
    rw [ho] at h
    obtain ⟨⟨a, _⟩, rest, rfl, rfl, hrest⟩ := List.map_eq_cons_iff.mp h
    obtain ⟨⟨b, _⟩, rfl, rfl⟩ := List.map_eq_singleton_iff.mp hrest
    exact .inl ⟨a, b, o, rfl, rfl⟩
  | none =>
    rw [ho] at h
    obtain ⟨⟨a, _⟩, rfl, rfl⟩ := List.map_eq_singleton_iff.mp h
    exact .inr ⟨a, rfl, rfl⟩

/-! ## Stop requests -/

theorem control_tellOverseer (d : Desk) (request : StopRequest) :
    (d.tellOverseer request).control = d.control.heed request := by
  unfold tellOverseer Control.heed
  cases ho : d.overseer with
  | none => simp only [control, ho]
  | some o =>
    have hstop := control_updateIntake
      ({ d with overseer := some (o.onStop request).1 }.log (o.onStop request).2) (.stop true)
    rw [control_log] at hstop
    simp only [control, ho] at hstop ⊢
    exact hstop

theorem Keeps.tellOverseer (h : Keeps d e) (request : StopRequest) :
    Keeps d (e.tellOverseer request) := by
  unfold Desk.tellOverseer
  split
  · exact h
  · next o ho => exact ((h.trans (keeps_overseer h.heard ho _)).note _).updateIntake _

theorem publishStop_eq (h : d.Attended) (request : StopRequest) :
    d.publishStop request =
      ((d.log (Event.stop request).logLine).note (.recorded (.stop request))).tellOverseer
        request := by
  unfold publishStop
  rcases entries_of_told (h.told .stop) with ⟨a, b, o, ho, hentries⟩ | ⟨a, ho, hentries⟩
  · have hstops : d.bus.stops = [(a, .recorder), (b, .overseer)] := hentries
    rw [hstops]
    rfl
  · have hstops : d.bus.stops = [(a, .recorder)] := hentries
    rw [hstops]
    simp only [Desk.tellOverseer, Desk.note, Desk.log, ho]
    rfl

theorem publishStop_spec (h : d.Attended) (request : StopRequest) :
    (d.publishStop request).control = d.control.publish request ∧
      Keeps d (d.publishStop request) := by
  rw [publishStop_eq h]
  constructor
  · rw [control_tellOverseer, control_recorded_stop, control_log]
    rfl
  · exact (((Keeps.refl h.heard).note _).note _).tellOverseer request

/-! ## Trades and finished runs -/

theorem obey_spec (h : d.Attended) (reaction : Overseer.Reaction) :
    (d.obey reaction).control = d.control.obey reaction ∧ Keeps d (d.obey reaction) := by
  cases reaction with
  | log line => exact ⟨control_log d line, (Keeps.refl h.heard).note _⟩
  | request request => exact publishStop_spec h request
  | startIntake =>
    have hcontrol := control_updateIntake d (.start true)
    have hkeeps := (Keeps.refl h.heard).updateIntake (d.intake.perform (.start true))
    simp only [Intake.perform, obey] at hcontrol hkeeps ⊢
    generalize d.intake.start true = p at hcontrol hkeeps
    obtain ⟨i, _ | fault⟩ := p
    · exact ⟨hcontrol, hkeeps⟩
    · exact ⟨(control_log _ _).trans hcontrol, hkeeps.note _⟩

theorem foldl_obey_spec (reactions : List Overseer.Reaction) (h : d.Attended) :
    (reactions.foldl obey d).control = reactions.foldl Control.obey d.control ∧
      Keeps d (reactions.foldl obey d) := by
  induction reactions generalizing d with
  | nil => exact ⟨rfl, .refl h.heard⟩
  | cons reaction reactions ih =>
    obtain ⟨hcontrol, hkeeps⟩ := obey_spec h reaction
    obtain ⟨hrest, hkeeps'⟩ := ih (hkeeps.attended h)
    rw [List.foldl_cons, List.foldl_cons, hrest, hcontrol]
    exact ⟨rfl, hkeeps.trans hkeeps'⟩

theorem consult_spec {o : Overseer} (h : d.Attended) (ho : d.overseer = some o)
    (next : Overseer × List Overseer.Reaction) :
    (d.consult next).control = d.control.consult next ∧ Keeps d (d.consult next) := by
  have hkeeps := keeps_overseer h.heard ho next.1
  obtain ⟨hcontrol, hkeeps'⟩ := foldl_obey_spec next.2 (hkeeps.attended h)
  exact ⟨hcontrol, hkeeps.trans hkeeps'⟩

theorem recorded_spec (h : d.Attended) (event : Event) (hevent : event.kind ≠ .stop) :
    ((d.log event.logLine).note (.recorded event)).control = d.control ∧
      Keeps d ((d.log event.logLine).note (.recorded event)) := by
  refine ⟨?_, h.heard, rfl, rfl⟩
  rw [control_note, control_log]
  cases event with
  | stop request => exact absurd rfl hevent
  | _ => simp [requests, Workroom.admissions]

theorem publishTrade_spec (h : d.Attended) (bot : BotId) (fill : Fill) :
    (d.publishTrade bot fill).1.control = d.control.after (.trade bot fill) ∧
      Keeps d (d.publishTrade bot fill).1 := by
  obtain ⟨hcontrol, hkeeps⟩ := recorded_spec h (.trade bot fill) (by simp [Event.kind])
  have hattended := hkeeps.attended h
  unfold publishTrade Control.after
  rw [← hcontrol]
  rcases entries_of_told (h.told .trade) with ⟨a, b, o, ho, hentries⟩ | ⟨a, ho, hentries⟩
  · have htrades : d.bus.trades = [(a, .recorder), (b, .overseer)] := hentries
    rw [htrades]
    simp only [tellTrades, tellTrade, control, note, log, ho] at hattended hkeeps ⊢
    cases o.onTrade bot fill with
    | ok next =>
      obtain ⟨hconsulted, hkeeps'⟩ := consult_spec hattended rfl next
      exact ⟨hconsulted, hkeeps.trans hkeeps'⟩
    | error fault => exact ⟨rfl, hkeeps⟩
  · have htrades : d.bus.trades = [(a, .recorder)] := hentries
    rw [htrades]
    simp only [tellTrades, tellTrade, control, note, log, ho] at hkeeps ⊢
    exact ⟨trivial, hkeeps⟩

theorem publishCycle_spec (h : d.Attended) (bot : BotId) (outcome : Outcome) :
    (d.publishCycle bot outcome).control = d.control.after (.cycle bot outcome) ∧
      Keeps d (d.publishCycle bot outcome) := by
  obtain ⟨hcontrol, hkeeps⟩ := recorded_spec h (.cycle bot outcome) (by simp [Event.kind])
  have hattended := hkeeps.attended h
  unfold publishCycle Control.after
  rw [← hcontrol]
  rcases entries_of_told (h.told .cycle) with ⟨a, b, o, ho, hentries⟩ | ⟨a, ho, hentries⟩
  · have hcycles : d.bus.cycles = [(a, .recorder), (b, .overseer)] := hentries
    rw [hcycles]
    simp only [List.foldl, tellCycle, control, note, log, ho] at hattended hkeeps ⊢
    obtain ⟨hconsulted, hkeeps'⟩ := consult_spec hattended rfl (o.onCycle bot outcome)
    exact ⟨hconsulted, hkeeps.trans hkeeps'⟩
  · have hcycles : d.bus.cycles = [(a, .recorder)] := hentries
    rw [hcycles]
    simp only [List.foldl, tellCycle, control, note, log, ho] at hkeeps ⊢
    exact ⟨trivial, hkeeps⟩

theorem publish_spec (h : d.Attended) (event : Event) :
    (d.publish event).1.control = d.control.after (.ofEvent event) ∧
      Keeps d (d.publish event).1 := by
  cases event with
  | trade bot fill => exact publishTrade_spec h bot fill
  | cycle bot outcome => exact publishCycle_spec h bot outcome
  | stop request => exact publishStop_spec h request

end Desk

end LaunchDesk
