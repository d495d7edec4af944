import LaunchDesk.Proofs.Session.Course

/-!
# What a move does

A move does one of three things to the seats of a session. It leaves them alone, a run goes on in
its seat, or a seat is freed; and whoever is admitted meanwhile waits behind them. `Step` says what
else is known of the session then.
-/

namespace LaunchDesk

namespace Session

open Run

variable {s v : Session} {d e : Desk} {k : Nat} {events : List Event} {more : List Desk.Note}
variable {seats : List Seat} {old new : Seat}

/-! ## Seats -/

def Seat.hasPlace : Seat → Bool
  | .gone => false
  | _ => true

/-- The run in a seat is not over. -/
def Seat.isOn : Seat → Bool
  | .waiting _ => true
  | .working _ => true
  | _ => false

/-- What the run at work in a seat has published. -/
def Seat.told : Seat → List Event
  | .working t => t.run.phase.published t.plan.botId
  | _ => []

/-- What a seat says about the events that its run has published. -/
def SeatKept (d : Desk) (events : List Event) : Option Seat → Prop
  | none => events = []
  | some (.waiting _) => events = []
  | some (.working t) =>
    d.IsStopOnly t.subscription ∧ t.run.isCrashed = false ∧ t.run.phase.Sound ∧
      events = t.run.phase.published t.plan.botId
  | some (.leaving _) => Chronicle.Closed events
  | some .gone => Chronicle.Closed events

theorem SeatKept.told_eq (h : SeatKept d events (some old)) (hold : old.isOn) :
    events = old.told := by
  cases old with
  | waiting opportunity => exact h
  | working t => exact h.2.2.2
  | leaving ending => cases hold
  | gone => cases hold

theorem Seat.hasPlace_of_isOn (h : old.isOn) : old.hasPlace := by
  cases old with
  | gone => cases h
  | _ => rfl

theorem set_append (hk : seats[k]? = some old) (more : List Seat) :
    (seats ++ more).set k new = seats.set k new ++ more := by
  obtain ⟨hlt, -⟩ := List.getElem?_eq_some_iff.mp hk
  exact List.set_append_left k new hlt

/-! ## Going on with a desk -/

theorem foldl_hear_eq (notes : List Desk.Note) (s : Session) :
    notes.foldl hear s = { s with
      seats := s.seats ++ (Desk.admitted notes).map .waiting
      owed := s.owed ++ Desk.dues notes } := by
  induction notes generalizing s with
  | nil => simp [Desk.dues]
  | cons n notes ih =>
    rw [List.foldl_cons, ih]
    cases n <;> simp [hear, Desk.admitted, Desk.dues]

theorem settle_eq (s : Session) (hmore : e.notes = s.desk.notes ++ more) :
    s.settle e = { s with
      desk := e
      seats := s.seats ++ (Desk.admitted more).map .waiting
      owed := s.owed ++ Desk.dues more } := by
  rw [settle, hmore, List.drop_left, foldl_hear_eq]

theorem desk_settle (s : Session) (d : Desk) : (s.settle d).desk = d := by
  rw [settle, foldl_hear_eq]

/-- `v` has these seats, and behind them one for everyone admitted since `s`. -/
def Seated (s v : Session) (seats : List Seat) : Prop :=
  ∃ more, v.desk.notes = s.desk.notes ++ more ∧
    v.seats = seats ++ (Desk.admitted more).map .waiting

theorem seated_settle (hnotes : s.desk.notes <+: e.notes) : Seated s (s.settle e) s.seats := by
  obtain ⟨more, hmore⟩ := hnotes
  rw [settle_eq s hmore.symm]
  exact ⟨more, hmore.symm, rfl⟩

theorem seated_set (hnotes : s.desk.notes <+: e.notes) (hk : s.seats[k]? = some old) :
    Seated s ((s.settle e).setSeat k new) (s.seats.set k new) := by
  obtain ⟨more, hmore⟩ := hnotes
  rw [settle_eq s hmore.symm]
  exact ⟨more, hmore.symm, set_append hk _⟩

theorem seated_same (hmore : e.notes = s.desk.notes ++ more) (hnone : Desk.admitted more = []) :
    Seated s { s with desk := e } s.seats :=
  ⟨more, hmore, by rw [hnone, List.map_nil, List.append_nil]⟩

/-! ## Places -/

theorem places_grow (h : d.intake.inProgress = seats.countP Seat.hasPlace)
    (hf : Desk.Follows d e events) (hmore : e.notes = d.notes ++ more) :
    e.intake.inProgress =
      (seats ++ (Desk.admitted more).map Seat.waiting).countP Seat.hasPlace := by
  have hcount := hf.inProgress
  rw [hmore, Desk.admitted_append, List.length_append, h] at hcount
  have hwaiting : ((Desk.admitted more).map Seat.waiting).countP Seat.hasPlace =
      (Desk.admitted more).length := by
    rw [List.countP_map]
    exact List.countP_eq_length.mpr fun _ _ => rfl
  rw [List.countP_append, hwaiting]
  omega

theorem countP_set_advance (hk : seats[k]? = some old) (hold : old.hasPlace)
    (hnew : new.hasPlace) :
    (seats.set k new).countP Seat.hasPlace = seats.countP Seat.hasPlace := by
  obtain ⟨hlt, hget⟩ := List.getElem?_eq_some_iff.mp hk
  have hpos : 0 < seats.countP Seat.hasPlace :=
    List.countP_pos_iff.mpr ⟨old, List.mem_of_getElem? hk, hold⟩
  rw [List.countP_set hlt, hget, if_pos hold, if_pos hnew]
  omega

theorem countP_set_gone (hk : seats[k]? = some old) (hold : old.hasPlace) :
    (seats.set k .gone).countP Seat.hasPlace = seats.countP Seat.hasPlace - 1 := by
  obtain ⟨hlt, hget⟩ := List.getElem?_eq_some_iff.mp hk
  rw [List.countP_set hlt, hget, if_pos hold]
  rfl

/-! ## Steps -/

/-- What leads from `s` to `v`, and what runs publish meanwhile. -/
inductive Step (s v : Session) : Chronicle → Prop
  | quiet (hf : Desk.Follows s.desk v.desk []) (hseats : Seated s v s.seats) : Step s v []
  | advance {k : Nat} {old new : Seat} {events : List Event}
      (hf : Desk.Follows s.desk v.desk events) (hk : s.seats[k]? = some old) (hold : old.isOn)
      (hnew : new.hasPlace) (hseats : Seated s v (s.seats.set k new))
      (hseat : SeatKept v.desk (old.told ++ events) (some new)) :
      Step s v (Chronicle.entries k events)
  | vacate {k : Nat} {ending : Intake.Ending} (hf : Desk.Follows s.desk.relieved v.desk [])
      (hk : s.seats[k]? = some (.leaving ending)) (hseats : Seated s v (s.seats.set k .gone)) :
      Step s v []

/-- What every run at work can rely on. -/
structure Ready (s : Session) : Prop where
  staffed : s.desk.Staffed
  numbered : s.desk.IsNumbered
  heard : s.desk.intake.notes = []
  runs : ∀ (k : Nat) (t : Trader), s.seats[k]? = some (.working t) →
    s.desk.IsStopOnly t.subscription ∧ t.run.phase.Sound

theorem step_settle (hf : Desk.Follows s.desk e []) : Step s (s.settle e) [] := by
  refine .quiet ?_ (seated_settle hf.notes)
  rwa [desk_settle]

theorem step_withDesk (hf : Desk.Follows s.desk e []) (hmore : e.notes = s.desk.notes ++ more)
    (hnone : Desk.admitted more = []) : Step s { s with desk := e } [] :=
  .quiet hf (seated_same hmore hnone)

theorem step_none (s : Session) (hd : s.desk.intake.notes = []) : Step s s [] :=
  step_withDesk (.refl hd) (List.append_nil _).symm rfl

theorem step_set (hf : Desk.Follows s.desk e events) (hk : s.seats[k]? = some old)
    (hold : old.isOn) (hnew : new.hasPlace)
    (hseat : SeatKept e (old.told ++ events) (some new)) :
    Step s ((s.settle e).setSeat k new) (Chronicle.entries k events) := by
  have hdesk : ((s.settle e).setSeat k new).desk = e := desk_settle s e
  refine .advance ?_ hk hold hnew (seated_set hf.notes hk) ?_
  · rwa [hdesk]
  · rwa [hdesk]

/-! ## Going on with a run -/

theorem closed_of_ended {bot : BotId} {result : Except Fault Outcome}
    (h : (Phase.ended result).Sound) : Chronicle.Closed ((Phase.ended result).published bot) := by
  cases result with
  | error fault => exact .nothing
  | ok outcome =>
    cases outcome with
    | completed trip => exact .told bot h
    | exited departure => exact .nothing

theorem follows_stopOthers (bot : BotId) (hd : d.intake.notes = []) :
    Desk.Follows d (stopOthers d bot) [] := by
  unfold stopOthers
  split
  · exact Desk.follows_stopAll _ _ hd
  · exact Desk.follows_log _ hd

theorem follows_conclude {t : Trader} {p : Desk × Intake.Ending} (hd : d.intake.notes = [])
    (h : conclude d t = some p) : Desk.Follows d p.1 [] := by
  unfold conclude at h
  split at h
  · cases h
    exact Desk.follows_log _ hd
  · cases h
    simp only
    split
    · exact follows_stopOthers _ hd
    · exact .refl hd
  · cases h
    exact .refl hd
  · cases h

theorem conclude_cases (d : Desk) (t : Trader) :
    conclude d t = none ∨ (∃ result, t.run.phase = .ended result) ∨ t.run.isCrashed := by
  unfold conclude isCrashed
  cases t.run.phase with
  | ended result => exact .inr (.inl ⟨result, rfl⟩)
  | crashed fault => exact .inr (.inr rfl)
  | _ => exact .inl rfl

theorem hasPanicked_of_crashed {t : Trader} (e : Desk) (hk : s.seats[k]? = some old)
    (h : t.run.isCrashed) : (s.proceed k e t).seats.any Seat.hasPanicked := by
  have hconclude : conclude e t = some (e, .panicked) := by
    unfold isCrashed at h
    unfold conclude
    cases hphase : t.run.phase with
    | crashed fault => rfl
    | _ => simp [hphase] at h
  have hproceed : s.proceed k e t =
      (s.settle (e.note (.ended k))).setSeat k (.leaving .panicked) := by
    rw [Session.proceed, hconclude]
  obtain ⟨hlt, -⟩ := List.getElem?_eq_some_iff.mp hk
  rw [hproceed, settle, foldl_hear_eq]
  change ((s.seats ++ _).set k (.leaving .panicked)).any _ = true
  rw [set_append hk, List.any_append, Bool.or_eq_true]
  exact .inl (List.any_eq_true.mpr ⟨_, List.mem_set hlt _, rfl⟩)

theorem step_proceed {t : Trader} (hf : Desk.Follows s.desk e events)
    (hk : s.seats[k]? = some old) (hold : old.isOn) (hid : e.IsStopOnly t.subscription)
    (hcrash : t.run.isCrashed = false) (hsound : t.run.phase.Sound)
    (hpublished : old.told ++ events = t.run.phase.published t.plan.botId) :
    Step s (s.proceed k e t) (Chronicle.entries k events) := by
  unfold Session.proceed
  split
  · exact step_set hf hk hold rfl ⟨hid, hcrash, hsound, hpublished⟩
  · next f ending hconclude =>
    have hended : ∃ result, t.run.phase = .ended result := by
      rcases conclude_cases e t with hnone | hended | hcrashed
      · rw [hnone] at hconclude
        cases hconclude
      · exact hended
      · rw [hcrash] at hcrashed
        cases hcrashed
    obtain ⟨result, hresult⟩ := hended
    have hconcluded := follows_conclude hf.heard hconclude
    have hnoted := Desk.follows_note (.ended k) rfl hconcluded.heard
    have hall := (hf.trans_quiet hconcluded).trans_quiet hnoted
    refine step_set hall hk hold rfl ?_
    rw [hresult] at hsound hpublished
    rw [hpublished]
    exact closed_of_ended hsound

/-! ## Moves -/

theorem step_start {opportunity : Opportunity} {now : Moment} {p : Desk × Trader}
    (h : s.Ready) (hk : s.seats[k]? = some (.waiting opportunity))
    (hstart : (s.heralded k opportunity).start? k k (s.plan k opportunity) now = some p) :
    Step s (s.proceed k p.1 p.2) (Chronicle.entries k []) := by
  have hlog : Desk.Follows s.desk (s.heralded k opportunity) [] := Desk.follows_log _ h.heard
  obtain ⟨hf, hid, hrun⟩ := Desk.follows_start? (hlog.staffed h.staffed)
    (hlog.isNumbered h.numbered) hlog.heard hstart
  obtain ⟨-, hcrash, hsound, hpublished⟩ := start_spec (s.plan k opportunity)
    (((s.heralded k opportunity).manned k (s.plan k opportunity).botId).machines k).cancelled now
    p.2.plan.botId
  refine step_proceed (hlog.quiet_trans hf) hk rfl hid ?_ ?_ ?_
  · rw [hrun]
    exact hcrash
  · rw [hrun]
    exact hsound
  · rw [hrun]
    exact hpublished.symm

theorem step_begin (h : s.Ready) (now : Moment) (k : Nat) :
    Step s (s.begin now k) (s.published (.begin now k)) := by
  simp only [Session.begin, published]
  cases hk : s.seats[k]? with
  | none => exact step_none s h.heard
  | some seat =>
    cases seat with
    | waiting opportunity =>
      have hquiet : announced
          ((s.heralded k opportunity).begun k (s.plan k opportunity) now).2 = [] :=
        (start_spec _ _ _ (s.plan k opportunity).botId).1
      simp only [hquiet]
      split
      · next desk trader hstart => exact step_start h hk hstart
      · have hlog : Desk.Follows s.desk (s.heralded k opportunity) [] := Desk.follows_log _ h.heard
        have hnoted := Desk.follows_note (.ended k) rfl hlog.heard
        exact step_set (hlog.trans hnoted) hk rfl rfl .nothing
    | _ => exact step_none s h.heard

theorem step_reply (h : s.Ready) (now : Moment) (k : Nat) (reply : Reply)
    (hfits : s.fits (.reply now k reply))
    (hwell : (s.reply now k reply).seats.any Seat.hasPanicked = false) :
    Step s (s.reply now k reply) (s.published (.reply now k reply)) := by
  simp only [Session.reply, published, fits] at hfits hwell ⊢
  cases hk : s.seats[k]? with
  | none => exact step_none s h.heard
  | some seat =>
    cases seat with
    | working t =>
      simp only [hk] at hfits hwell
      obtain ⟨hid, hsound⟩ := h.runs k t hk
      -- A crash, inside the run or outside, would have left a panic in the seat.
      have hcrash : (s.desk.resume k t now reply).2.run.isCrashed = false := by
        by_contra hcrashed
        rw [hasPanicked_of_crashed _ hk (by simpa using hcrashed)] at hwell
        cases hwell
      obtain ⟨hf, htrader, hgood, hsays⟩ :=
        Desk.follows_resume rfl h.staffed h.heard hid hsound hfits hcrash
      refine step_proceed hf hk rfl ?_ hcrash ?_ ?_
      · rw [htrader]
        exact hf.isStopOnly hid
      · rw [htrader]
        exact hgood
      · rw [htrader]
        exact hsays.symm
    | _ => exact step_none s h.heard

theorem step_vacate (k : Nat) (hd : s.desk.intake.notes = []) : Step s (s.vacate k) [] := by
  unfold Session.vacate
  split
  · next ending hk =>
    have hf := Desk.follows_finish k ending hd
    refine .vacate ?_ hk (seated_set (s := s) hf.notes hk)
    change Desk.Follows _ (s.settle _).desk _
    rwa [desk_settle]
  · exact step_none s hd

theorem step_deliver (stale : Bool) (opportunity : Opportunity) (hd : s.desk.intake.notes = []) :
    Step s (s.deliver stale opportunity) [] := by
  unfold Session.deliver
  split
  · exact step_settle (Desk.follows_deliver opportunity hd)
  · exact step_none s hd

theorem pay_eq (s : Session) (i : Nat) : ∃ owed wallet d,
    (d = s.desk ∨ ∃ line, d = s.desk.log line) ∧
      s.pay i = { s with owed := owed, wallet := wallet, desk := d } := by
  unfold Session.pay
  split
  · exact ⟨_, _, _, .inl rfl, rfl⟩
  · simp only
    split
    · exact ⟨_, _, _, .inr ⟨_, rfl⟩, rfl⟩
    · split
      · exact ⟨_, _, _, .inr ⟨_, rfl⟩, rfl⟩
      · exact ⟨_, _, _, .inl rfl, rfl⟩

theorem step_pay (i : Nat) (hd : s.desk.intake.notes = []) : Step s (s.pay i) [] := by
  obtain ⟨owed, wallet, d, rfl | ⟨line, rfl⟩, hpay⟩ := pay_eq s i <;> rw [hpay]
  · exact .quiet (.refl hd) (seated_same (List.append_nil _).symm rfl)
  · exact .quiet (Desk.follows_log line hd) (seated_same rfl rfl)

theorem step_beginShutdown (hd : s.desk.intake.notes = []) : Step s s.beginShutdown [] := by
  have hstopped := Desk.follows_stopAll .shutdown none hd
  obtain ⟨more, hmore, hseats⟩ := seated_settle hstopped.notes
  refine .quiet ?_ ⟨more, hmore, hseats⟩
  change Desk.Follows s.desk ((s.settle _).desk.wait .idle) []
  rw [desk_settle]
  exact hstopped.trans (Desk.follows_wait .idle hstopped.heard)

theorem step_after (h : s.Ready) (move : Move) (hfits : s.fits move)
    (hwell : (s.after move).seats.any Seat.hasPanicked = false) :
    Step s (s.after move) (s.published move) := by
  have hd := h.heard
  cases move with
  | start resuming => exact step_settle (Desk.follows_startIntake resuming hd)
  | stop force => exact step_settle (Desk.follows_stopIntake force hd)
  | deliver stale opportunity => exact step_deliver stale opportunity hd
  | failNext text =>
    exact step_withDesk (Desk.follows_updateFeed _ hd) (List.append_nil _).symm rfl
  | interruptNext interruption =>
    exact step_withDesk (Desk.follows_updateFeed _ hd) (List.append_nil _).symm rfl
  | begin now k => exact step_begin h now k
  | reply now k reply => exact step_reply h now k reply hfits hwell
  | vacate k => exact step_vacate k hd
  | pay i => exact step_pay i hd
  | wait goal => exact step_withDesk (Desk.follows_wait goal hd) (List.append_nil _).symm rfl
  | beginShutdown => exact step_beginShutdown hd
  | endShutdown => exact step_withDesk (Desk.follows_log _ hd) rfl rfl

end Session

end LaunchDesk
