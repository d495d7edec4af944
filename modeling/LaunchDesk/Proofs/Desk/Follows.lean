import LaunchDesk.Desk.Trader
import LaunchDesk.Proofs.Bus
import LaunchDesk.Proofs.Intake.Growth
import LaunchDesk.Proofs.Overseer.Ledger
import LaunchDesk.Proofs.Run.Published

/-!
# What a desk keeps

Whatever happens at a desk, it notes more, its intake admits what those notes say, those who are
told of trades and finished runs stay the same, and the ledger of the overseer changes by what is
published. `Follows` says so, and every operation has its own lemma.
-/

namespace LaunchDesk.Desk

variable {d e f : Desk} {events further : List Event}

/-- The opportunities that notes say were admitted. -/
def admitted (notes : List Note) : List Opportunity :=
  notes.filterMap fun
    | .admitted _ opportunity => some opportunity
    | _ => none

@[simp] theorem admitted_nil : admitted [] = [] := rfl

@[simp] theorem admitted_append (a b : List Note) :
    admitted (a ++ b) = admitted a ++ admitted b := by
  simp [admitted]

/-- What notes say the wallet is to change by. -/
def dues (notes : List Note) : List Decimal :=
  notes.filterMap fun
    | .owed amount => some amount
    | _ => none

theorem dues_append (a b : List Note) : dues (a ++ b) = dues a ++ dues b := by simp [dues]

def ledger? (d : Desk) : Option Ledger := d.overseer.map Overseer.ledger

/-- `e` comes from `d` by what is done when `events` are published. The intake has no notes that the
desk has not taken over. -/
structure Follows (d e : Desk) (events : List Event) : Prop where
  notes : d.notes <+: e.notes
  heard : e.intake.notes = []
  ceiling : e.intake.maxConcurrent = d.intake.maxConcurrent
  within : d.intake.WithinCeiling → e.intake.WithinCeiling
  inProgress : e.intake.inProgress + (admitted d.notes).length =
    d.intake.inProgress + (admitted e.notes).length
  trades : e.bus.trades = d.bus.trades
  cycles : e.bus.cycles = d.bus.cycles
  next : d.bus.next ≤ e.bus.next
  ledger : ∀ l, d.ledger? = some l → ∃ m, e.ledger? = some m ∧ l.afterAll events = .ok m

namespace Follows

theorem refl (hd : d.intake.notes = []) : Follows d d [] where
  notes := List.prefix_rfl
  heard := hd
  ceiling := rfl
  within := id
  inProgress := rfl
  trades := rfl
  cycles := rfl
  next := Nat.le_refl _
  ledger := fun l hl => ⟨l, hl, rfl⟩

theorem trans (h : Follows d e events) (h' : Follows e f further) :
    Follows d f (events ++ further) where
  notes := h.notes.trans h'.notes
  heard := h'.heard
  ceiling := h'.ceiling.trans h.ceiling
  within := fun hd => h'.within (h.within hd)
  inProgress := by
    have hfirst := h.inProgress
    have hsecond := h'.inProgress
    omega
  trades := h'.trades.trans h.trades
  cycles := h'.cycles.trans h.cycles
  next := Nat.le_trans h.next h'.next
  ledger := by
    intro l hl
    obtain ⟨m, hm, hfirst⟩ := h.ledger l hl
    obtain ⟨n, hn, hsecond⟩ := h'.ledger m hm
    exact ⟨n, hn, by rw [Ledger.afterAll_append further hfirst, hsecond]⟩

theorem quiet_trans (h : Follows d e []) (h' : Follows e f events) : Follows d f events :=
  h.trans h'

theorem trans_quiet (h : Follows d e events) (h' : Follows e f []) : Follows d f events :=
  List.append_nil events ▸ h.trans h'

theorem of_same {more : List Note} (hd : d.intake.notes = []) (hnotes : e.notes = d.notes ++ more)
    (hmore : admitted more = []) (hintake : e.intake = d.intake)
    (htrades : e.bus.trades = d.bus.trades) (hcycles : e.bus.cycles = d.bus.cycles)
    (hnext : d.bus.next ≤ e.bus.next) (hledger : e.ledger? = d.ledger?) : Follows d e [] where
  notes := ⟨more, hnotes.symm⟩
  heard := by rw [hintake, hd]
  ceiling := by rw [hintake]
  within := by
    rw [hintake]
    exact id
  inProgress := by rw [hintake, hnotes, admitted_append, hmore, List.append_nil]
  trades := htrades
  cycles := hcycles
  next := hnext
  ledger := fun l hl => ⟨l, hledger.trans hl, rfl⟩

theorem of_unseen (ho : d.overseer = none) (h : Follows d e []) : Follows d e events :=
  { h with
    ledger := by
      intro l hl
      rw [ledger?, ho] at hl
      cases hl }

theorem foldl {α : Type} {step : Desk → α → Desk}
    (hstep : ∀ d x, d.intake.notes = [] → Follows d (step d x) []) (list : List α)
    (hd : d.intake.notes = []) : Follows d (list.foldl step d) [] := by
  induction list generalizing d with
  | nil => exact .refl hd
  | cons x list ih =>
    have hfirst := hstep d x hd
    exact hfirst.quiet_trans (ih hfirst.heard)

end Follows

/-! ## Notes, machines and waiters -/

theorem follows_note (n : Note) (hn : admitted [n] = []) (hd : d.intake.notes = []) :
    Follows d (d.note n) [] :=
  .of_same hd rfl hn rfl rfl rfl (Nat.le_refl _) rfl

theorem follows_log (line : Log.Line) (hd : d.intake.notes = []) : Follows d (d.log line) [] :=
  follows_note (.log line) rfl hd

theorem follows_updateMachine (m : Nat) (f : Machine → Machine) (hd : d.intake.notes = []) :
    Follows d (d.updateMachine m f) [] :=
  .of_same hd (List.append_nil _).symm rfl rfl rfl rfl (Nat.le_refl _) rfl

theorem follows_wait (goal : Intake.Goal) (hd : d.intake.notes = []) :
    Follows d (d.wait goal) [] :=
  .of_same hd (List.append_nil _).symm rfl rfl rfl rfl (Nat.le_refl _) rfl

/-! ## Changes of the intake -/

def relay? : Intake.Note → Option Note
  | .log line => some (.log line)
  | .admitted index opportunity => some (.admitted index opportunity)
  | .changed => none

theorem admitted_relay (notes : List Intake.Note) :
    admitted (notes.filterMap relay?) = (Intake.admissions notes).map (·.2) := by
  induction notes with
  | nil => rfl
  | cons n notes ih =>
    cases n with
    | log line => exact ih
    | admitted index opportunity => exact congrArg (opportunity :: ·) ih
    | changed => exact ih

theorem foldl_hear (notes : List Intake.Note) (d : Desk) :
    (notes.foldl hear d).notes = d.notes ++ notes.filterMap relay? ∧
      (notes.foldl hear d).intake = d.intake ∧ (notes.foldl hear d).bus = d.bus ∧
      (notes.foldl hear d).overseer = d.overseer := by
  induction notes generalizing d with
  | nil => exact ⟨(List.append_nil _).symm, rfl, rfl, rfl⟩
  | cons n notes ih =>
    obtain ⟨hnotes, hintake, hbus, hoverseer⟩ := ih (d.hear n)
    rw [List.foldl_cons, hnotes, hintake, hbus, hoverseer]
    cases n with
    | log line => exact ⟨List.append_assoc _ _ _, rfl, rfl, rfl⟩
    | admitted index opportunity => exact ⟨List.append_assoc _ _ _, rfl, rfl, rfl⟩
    | changed => exact ⟨rfl, rfl, rfl, rfl⟩

theorem follows_updateIntake {i : Intake} {more : List Intake.Note} (hd : d.intake.notes = [])
    (hg : Intake.Grows d.intake i more) : Follows d (d.updateIntake i) [] := by
  -- The desk had taken over all notes before, so those that are there now are new.
  have hmore : i.notes = more := by rw [hg.notes, hd, List.nil_append]
  have hheard := foldl_hear i.notes { d with intake := { i with notes := [] } }
  have hnotes : (d.updateIntake i).notes = d.notes ++ i.notes.filterMap relay? := hheard.1
  have hintake : (d.updateIntake i).intake = { i with notes := [] } := hheard.2.1
  have hbus : (d.updateIntake i).bus = d.bus := hheard.2.2.1
  have hoverseer : (d.updateIntake i).overseer = d.overseer := hheard.2.2.2
  constructor
  · exact ⟨_, hnotes.symm⟩
  · rw [hintake]
  · rw [hintake]
    exact hg.ceiling
  · rw [hintake]
    exact hg.within
  · rw [hintake, hnotes, admitted_append, admitted_relay, hmore, List.length_append,
      List.length_map]
    change i.inProgress + _ = _
    rw [hg.inProgress]
    omega
  · rw [hbus]
  · rw [hbus]
  · rw [hbus]
  · intro l hl
    rw [ledger?, hoverseer]
    exact ⟨l, hl, rfl⟩

theorem follows_startIntake (resuming : Bool) (hd : d.intake.notes = []) :
    Follows d (d.startIntake resuming).1 [] := by
  obtain ⟨more, hgrows, -⟩ := Intake.grows_start d.intake resuming
  exact follows_updateIntake hd hgrows

theorem follows_stopIntake (force : Bool) (hd : d.intake.notes = []) :
    Follows d (d.stopIntake force) [] := by
  obtain ⟨more, hgrows, -⟩ := Intake.grows_stop d.intake force
  exact follows_updateIntake hd hgrows

theorem follows_deliver (opportunity : Opportunity) (hd : d.intake.notes = []) :
    Follows d (d.deliver opportunity) [] := by
  obtain ⟨more, hgrows, -⟩ := Intake.grows_deliver d.intake opportunity
  exact follows_updateIntake hd hgrows

def relieved (d : Desk) : Desk := { d with intake := d.intake.relieved }

theorem follows_finish (index : Nat) (ending : Intake.Ending) (hd : d.intake.notes = []) :
    Follows d.relieved (d.finish index ending) [] := by
  obtain ⟨more, hgrows, -⟩ := Intake.grows_release (d.intake.log (ending.logLine index))
  -- It makes no difference whether the log line is noted before or after.
  have hlog := Intake.grows_log d.intake.relieved (ending.logLine index)
  exact follows_updateIntake (d := d.relieved) hd (hlog.trans hgrows)

theorem follows_updateFeed (change : Feed → Feed) (hd : d.intake.notes = []) :
    Follows d { d with intake := d.intake.updateFeed change } [] where
  notes := List.prefix_rfl
  heard := hd
  ceiling := rfl
  within := id
  inProgress := rfl
  trades := rfl
  cycles := rfl
  next := Nat.le_refl _
  ledger := fun l hl => ⟨l, hl, rfl⟩

/-! ## Stop requests -/

theorem follows_tellRun (request : StopRequest) (m : Nat) (bot : BotId)
    (hd : d.intake.notes = []) : Follows d (d.tellRun request m bot) [] := by
  unfold tellRun
  split
  · exact (follows_updateMachine m _ hd).quiet_trans (follows_log _ hd)
  · exact .refl hd

theorem follows_overseer {o p : Overseer} (hd : d.intake.notes = []) (ho : d.overseer = some o)
    (hledger : o.ledger.afterAll events = .ok p.ledger) :
    Follows d { d with overseer := some p } events where
  notes := List.prefix_rfl
  heard := hd
  ceiling := rfl
  within := id
  inProgress := rfl
  trades := rfl
  cycles := rfl
  next := Nat.le_refl _
  ledger := by
    intro l hl
    rw [ledger?, ho] at hl
    cases hl
    exact ⟨p.ledger, rfl, hledger⟩

theorem follows_tellOverseer (request : StopRequest) (hd : d.intake.notes = []) :
    Follows d (d.tellOverseer request) [] := by
  unfold tellOverseer
  split
  · exact .refl hd
  · next o ho =>
    have hledger : o.ledger.afterAll [] = .ok (o.onStop request).1.ledger := by
      rw [Overseer.onStop_ledger, Ledger.afterAll_nil]
    have hchanged := follows_overseer hd ho hledger
    have hlogged := hchanged.quiet_trans (follows_log (o.onStop request).2 hd)
    obtain ⟨more, hgrows, -⟩ := Intake.grows_stop d.intake true
    exact hlogged.quiet_trans (follows_updateIntake hd hgrows)

theorem follows_tellStop (request : StopRequest) (s : Subscriber) (hd : d.intake.notes = []) :
    Follows d (tellStop request d s) [] := by
  cases s with
  | recorder => exact follows_note _ rfl hd
  | overseer => exact follows_tellOverseer request hd
  | wallet => exact .refl hd
  | run m bot => exact follows_tellRun request m bot hd

theorem follows_publishStop (request : StopRequest) (hd : d.intake.notes = []) :
    Follows d (d.publishStop request) [] :=
  (follows_log _ hd).quiet_trans
    (.foldl (fun _ e hd => follows_tellStop request e.2 hd) d.bus.stops hd)

theorem follows_stopAll (reason : StopReason) (exclude : Option BotId)
    (hd : d.intake.notes = []) : Follows d (d.stopAll reason exclude) [] :=
  (follows_log _ hd).quiet_trans (follows_publishStop _ hd)

/-! ## Trades and finished runs -/

theorem follows_obey (reaction : Overseer.Reaction) (hd : d.intake.notes = []) :
    Follows d (d.obey reaction) [] := by
  cases reaction with
  | log line => exact follows_log line hd
  | request request => exact follows_publishStop request hd
  | startIntake =>
    obtain ⟨more, hgrows, -⟩ := Intake.grows_start d.intake true
    simp only [obey]
    generalize d.intake.start true = p at hgrows
    obtain ⟨i, fault | fault⟩ := p
    · exact follows_updateIntake hd hgrows
    · have hstarted := follows_updateIntake hd hgrows
      exact hstarted.quiet_trans (follows_log _ hstarted.heard)

theorem follows_consult {o : Overseer} {next : Overseer × List Overseer.Reaction}
    (hd : d.intake.notes = []) (ho : d.overseer = some o)
    (hledger : o.ledger.afterAll events = .ok next.1.ledger) :
    Follows d (d.consult next) events := by
  have hcounted := follows_overseer hd ho hledger
  exact hcounted.trans_quiet (.foldl (fun _ reaction hd => follows_obey reaction hd) next.2 hd)

/-- How often the overseer is among subscribers. -/
def overseers (entries : List (SubscriptionId × Subscriber)) : Nat :=
  entries.countP fun e => e.2 = .overseer

theorem replicate_overseers_cons {α : Type} (entry : SubscriptionId × Subscriber)
    (entries : List (SubscriptionId × Subscriber)) (a : α) :
    List.replicate (overseers (entry :: entries)) a =
      (if entry.2 = .overseer then [a] else []) ++ List.replicate (overseers entries) a := by
  unfold overseers
  by_cases hs : entry.2 = .overseer
  · rw [if_pos hs, List.countP_cons_of_pos (by simpa using hs)]
    rfl
  · rw [if_neg hs, List.countP_cons_of_neg (by simpa using hs)]
    rfl

theorem follows_tellTrade {bot : BotId} {fill : Fill} {s : Subscriber} (hd : d.intake.notes = [])
    (h : tellTrade bot fill d s = .ok e) :
    Follows d e (if s = .overseer then [.trade bot fill] else []) := by
  cases s with
  | recorder =>
    cases h
    exact follows_note _ rfl hd
  | wallet =>
    cases h
    exact follows_note _ rfl hd
  | run m b =>
    cases h
    exact .refl hd
  | overseer =>
    rw [if_pos rfl]
    cases ho : d.overseer with
    | none =>
      simp only [tellTrade, ho] at h
      cases h
      exact (Follows.refl hd).of_unseen ho
    | some o =>
      simp only [tellTrade, ho] at h
      cases hnext : o.onTrade bot fill with
      | error fault =>
        rw [hnext] at h
        cases h
      | ok next =>
        rw [hnext] at h
        cases h
        refine follows_consult hd ho ?_
        rw [Ledger.afterAll_singleton, Overseer.onTrade_ledger hnext]

/-- A trade counts as often as the overseer is told of it. -/
theorem follows_tellTrades {bot : BotId} {fill : Fill}
    {entries : List (SubscriptionId × Subscriber)} (hd : d.intake.notes = [])
    (h : tellTrades bot fill d entries = (e, none)) :
    Follows d e (List.replicate (overseers entries) (.trade bot fill)) := by
  induction entries generalizing d with
  | nil =>
    cases h
    exact .refl hd
  | cons entry entries ih =>
    simp only [tellTrades] at h
    cases htold : tellTrade bot fill d entry.2 with
    | error fault =>
      rw [htold] at h
      cases h
    | ok f =>
      rw [htold] at h
      have hfirst := follows_tellTrade hd htold
      rw [replicate_overseers_cons]
      exact hfirst.trans (ih hfirst.heard h)

theorem follows_tellCycle (bot : BotId) (outcome : Outcome) (s : Subscriber)
    (hd : d.intake.notes = []) :
    Follows d (tellCycle bot outcome d s) (if s = .overseer then [.cycle bot outcome] else []) := by
  cases s with
  | recorder => exact follows_note _ rfl hd
  | wallet => exact .refl hd
  | run m b => exact .refl hd
  | overseer =>
    rw [if_pos rfl]
    cases ho : d.overseer with
    | none =>
      simp only [tellCycle, ho]
      exact (Follows.refl hd).of_unseen ho
    | some o =>
      simp only [tellCycle, ho]
      refine follows_consult hd ho ?_
      rw [Ledger.afterAll_singleton, Overseer.onCycle_ledger]

theorem follows_tellCycles (bot : BotId) (outcome : Outcome)
    (entries : List (SubscriptionId × Subscriber)) (hd : d.intake.notes = []) :
    Follows d (entries.foldl (fun d e => tellCycle bot outcome d e.2) d)
      (List.replicate (overseers entries) (.cycle bot outcome)) := by
  induction entries generalizing d with
  | nil => exact .refl hd
  | cons entry entries ih =>
    have hfirst := follows_tellCycle bot outcome entry.2 hd
    rw [replicate_overseers_cons]
    exact hfirst.trans (ih hfirst.heard)

/-- The overseer is told of every trade and of every finished run once. -/
structure Staffed (d : Desk) : Prop where
  trades : overseers d.bus.trades = 1
  cycles : overseers d.bus.cycles = 1

theorem Follows.staffed (h : Follows d e events) (hd : d.Staffed) : e.Staffed where
  trades := by rw [h.trades, hd.trades]
  cycles := by rw [h.cycles, hd.cycles]

theorem follows_publish {event : Event} (hstaffed : d.Staffed) (hd : d.intake.notes = [])
    (h : d.publish event = (e, none)) : Follows d e [event] := by
  cases event with
  | trade bot fill =>
    have hlogged := follows_log (Event.trade bot fill).logLine hd
    have htold := follows_tellTrades hlogged.heard h
    rw [hstaffed.trades] at htold
    exact hlogged.quiet_trans htold
  | cycle bot outcome =>
    cases h
    have hlogged := follows_log (Event.cycle bot outcome).logLine hd
    have htold := follows_tellCycles bot outcome d.bus.cycles hlogged.heard
    rw [hstaffed.cycles] at htold
    exact hlogged.quiet_trans htold
  | stop request =>
    cases h
    have hfollows := follows_publishStop request hd
    exact { hfollows with ledger := hfollows.ledger }

/-! ## Runs -/

theorem follows_carryOut {notices : List Run.Notice} (hstaffed : d.Staffed)
    (hd : d.intake.notes = []) (h : d.carryOut notices = (e, none)) :
    Follows d e (Run.announced notices) := by
  induction notices generalizing d with
  | nil =>
    cases h
    exact .refl hd
  | cons notice notices ih =>
    cases notice with
    | log line =>
      have hlogged := follows_log line hd
      exact hlogged.quiet_trans (ih (hlogged.staffed hstaffed) hlogged.heard h)
    | publish event =>
      simp only [carryOut] at h
      cases hpublish : d.publish event with
      | mk f fault =>
        rw [hpublish] at h
        cases fault with
        | some fault => cases h
        | none =>
          have hfirst := follows_publish hstaffed hd hpublish
          exact hfirst.trans (ih (hfirst.staffed hstaffed) hfirst.heard h)

/-- A subscription to neither trades nor finished runs. -/
def IsStopOnly (d : Desk) (id : SubscriptionId) : Prop :=
  Bus.holds id d.bus.trades = false ∧ Bus.holds id d.bus.cycles = false

theorem Follows.isStopOnly {id : SubscriptionId} (h : Follows d e events) (hid : d.IsStopOnly id) :
    e.IsStopOnly id := by
  rwa [IsStopOnly, h.trades, h.cycles]

theorem follows_unsubscribe {id : SubscriptionId} (hid : d.IsStopOnly id)
    (hd : d.intake.notes = []) : Follows d (d.unsubscribe id) [] := by
  have hbus : (d.unsubscribe id).bus = { d.bus with stops := Bus.without id d.bus.stops } :=
    Bus.unsubscribe_stops hid.1 hid.2
  exact .of_same hd (List.append_nil _).symm rfl rfl (by rw [hbus]) (by rw [hbus]) (by rw [hbus])
    rfl

theorem follows_leave {t : Trader} (hid : d.IsStopOnly t.subscription)
    (hd : d.intake.notes = []) : Follows d (d.leave t) [] :=
  (follows_unsubscribe hid hd).quiet_trans (follows_updateMachine t.machine _ hd)

/-- A run that an overflow outside crashes is lost, and any other goes on. -/
theorem proceed_trader (d : Desk) (who : Nat) (t : Trader) (p : Run.Progress) :
    (d.proceed who t p).2 = { t with run := (d.carryOut p.2).2.elim p.1 p.1.crash } := by
  rcases hcarried : d.carryOut p.2 with ⟨f, fault⟩
  simp only [proceed, goOn, hcarried]
  split
  · rfl
  · rfl

theorem follows_proceed {who : Nat} {t : Trader} {p : Run.Progress} (hstaffed : d.Staffed)
    (hd : d.intake.notes = []) (hid : d.IsStopOnly t.subscription)
    (h : (d.carryOut p.2).2 = none) :
    Follows d (d.proceed who t p).1 (Run.announced p.2) := by
  rcases hcarried : d.carryOut p.2 with ⟨f, fault⟩
  rw [hcarried] at h
  cases h
  have hf := follows_carryOut hstaffed hd hcarried
  simp only [proceed, goOn, hcarried]
  split
  · exact hf.trans_quiet (follows_note _ rfl hf.heard)
  · exact hf.trans_quiet (follows_leave (hf.isStopOnly hid) hf.heard)

theorem follows_resume {who : Nat} {t : Trader} {now : Moment} {reply : Reply} {p : Run.Progress}
    (hp : t.run.resume t.plan (d.machines t.machine).cancelled now reply = p)
    (hstaffed : d.Staffed) (hd : d.intake.notes = []) (hid : d.IsStopOnly t.subscription)
    (hsound : t.run.phase.Sound) (htakes : t.run.phase.takes reply)
    (h : (d.resume who t now reply).2.run.isCrashed = false) :
    Follows d (d.resume who t now reply).1 (Run.announced p.2) ∧
      (d.resume who t now reply).2 = { t with run := p.1 } ∧ p.1.phase.Sound ∧
      p.1.phase.published t.plan.botId =
        t.run.phase.published t.plan.botId ++ Run.announced p.2 := by
  have htells : Run.Tells t.plan.botId _ (t.run.resume t.plan _ now reply) :=
    Run.tells_resume (d.machines t.machine).cancelled hsound htakes
  unfold resume at h ⊢
  rw [hp] at h htells ⊢
  have htrader := proceed_trader d who t p
  have hfault : (d.carryOut p.2).2 = none := by
    cases hcarried : (d.carryOut p.2).2 with
    | none => rfl
    | some fault =>
      rw [htrader, hcarried] at h
      cases h
  rw [hfault] at htrader
  rw [htrader] at h
  exact ⟨follows_proceed hstaffed hd hid hfault, htrader, htells h⟩

theorem follows_subscribe (s : Subscriber) (hd : d.intake.notes = []) :
    Follows d (d.subscribe .stop s).2 [] :=
  .of_same hd (List.append_nil _).symm rfl rfl rfl rfl (Nat.le_succ _) rfl

/-- Every subscription to trades or to finished runs is older than the next one. -/
def IsNumbered (d : Desk) : Prop :=
  (∀ e ∈ d.bus.trades, e.1 < d.bus.next) ∧ ∀ e ∈ d.bus.cycles, e.1 < d.bus.next

theorem Follows.isNumbered (h : Follows d e events) (hd : d.IsNumbered) : e.IsNumbered := by
  unfold IsNumbered
  rw [h.trades, h.cycles]
  exact ⟨fun s hs => Nat.lt_of_lt_of_le (hd.1 s hs) h.next,
    fun s hs => Nat.lt_of_lt_of_le (hd.2 s hs) h.next⟩

theorem isStopOnly_next (h : d.IsNumbered) : d.IsStopOnly d.bus.next :=
  ⟨Bus.holds_of_lt h.1, Bus.holds_of_lt h.2⟩

def manned (d : Desk) (m : Nat) (bot : BotId) : Desk :=
  ((d.updateMachine m fun s => { s with running := true }).subscribe .stop (.run m bot)).2

theorem follows_manned (m : Nat) (bot : BotId) (hd : d.intake.notes = []) :
    Follows d (d.manned m bot) [] :=
  (follows_updateMachine m _ hd).quiet_trans (follows_subscribe _ hd)

def begun (d : Desk) (m : Nat) (plan : Plan) (now : Moment) : Run.Progress :=
  Run.start plan ((d.manned m plan.botId).machines m).cancelled now

theorem start?_eq_some {who m : Nat} {plan : Plan} {now : Moment} {p : Desk × Trader}
    (h : d.start? who m plan now = some p) :
    p = (d.manned m plan.botId).proceed who
      { machine := m, plan := plan, subscription := d.bus.next, run := (d.begun m plan now).1 }
      (d.begun m plan now) := by
  unfold start? at h
  split at h
  · cases h
  · cases h
    rfl

theorem carryOut_quiet {notices : List Run.Notice} (h : Run.announced notices = []) :
    (d.carryOut notices).2 = none := by
  induction notices generalizing d with
  | nil => rfl
  | cons notice notices ih =>
    cases notice with
    | log line => exact ih h
    | publish event => cases h

theorem follows_start? {who m : Nat} {plan : Plan} {now : Moment} {p : Desk × Trader}
    (hstaffed : d.Staffed) (hnumbered : d.IsNumbered) (hd : d.intake.notes = [])
    (h : d.start? who m plan now = some p) :
    Follows d p.1 [] ∧ p.1.IsStopOnly p.2.subscription ∧ p.2.run = (d.begun m plan now).1 := by
  obtain rfl := start?_eq_some h
  have hquiet : Run.announced (d.begun m plan now).2 = [] := (Run.start_spec _ _ _ plan.botId).1
  have hcarried : ((d.manned m plan.botId).carryOut (d.begun m plan now).2).2 = none :=
    carryOut_quiet hquiet
  have hmanned := follows_manned m plan.botId hd
  have hid := hmanned.isStopOnly (isStopOnly_next hnumbered)
  let t : Trader := ⟨m, plan, d.bus.next, (d.begun m plan now).1⟩
  have hgoes : Follows _ ((d.manned m plan.botId).proceed who t (d.begun m plan now)).1 _ :=
    follows_proceed (hmanned.staffed hstaffed) hmanned.heard hid hcarried
  rw [hquiet] at hgoes
  have htrader := proceed_trader (d.manned m plan.botId) who t (d.begun m plan now)
  rw [hcarried] at htrader
  refine ⟨hmanned.quiet_trans hgoes, ?_, ?_⟩
  · rw [htrader]
    exact hgoes.isStopOnly hid
  · rw [htrader]
    rfl

end LaunchDesk.Desk
