import LaunchDesk.Proofs.Session.Wallet
import LaunchDesk.Proofs.Session.Watch

/-!
# Shutting down

A shutdown asks everyone to stop and waits for the intake to be idle. Nobody is admitted from then
on, and a run gives its place back when it is over, which it is not as long as it holds a position.
So when the shutdown has what it waits for, nothing is left but the overseer and the wallet.
-/

namespace LaunchDesk.Session

open Control (Sealed Rests)
open Chronicle (Holds Tale)
open Run (sampleFill)

variable {s v : Session} {d e : Desk} {k n : Nat} {events : List Event} {c : Chronicle}
variable {seats : List Seat} {old new : Seat} {turn : Turn} {l m : Ledger}

/-! ## Positions of runs at work -/

/-- The run in a seat has bought and not sold. -/
def Seat.holds (seat : Seat) : Bool := decide (Holds seat.told)

theorem SeatKept.tale (h : SeatKept d events (some new)) : Tale events := by
  cases new with
  | waiting opportunity => exact h ▸ .nothing
  | working t => exact h.2.2.2 ▸ tale_of_phase h.2.2.1
  | leaving ending => exact tale_of_closed h
  | gone => exact tale_of_closed h

theorem Seat.holds_of_told {seat : Seat} (h : seat.told = []) : seat.holds = false := by
  rw [Seat.holds, h]
  rfl

theorem SeatKept.holds_eq (h : SeatKept d events (some new)) :
    new.holds = decide (Holds events) := by
  cases new with
  | waiting opportunity =>
    rw [show events = [] from h]
    rfl
  | working t =>
    rw [h.2.2.2]
    rfl
  | leaving ending => rw [Seat.holds_of_told rfl, decide_eq_false (not_holds_of_closed h)]
  | gone => rw [Seat.holds_of_told rfl, decide_eq_false (not_holds_of_closed h)]

theorem openPositions_advance (hseat : SeatKept e (old.told ++ events) (some new))
    (hl : old.holds → 1 ≤ l.openPositions) (hm : l.afterAll events = .ok m) :
    m.openPositions + old.holds.toNat = l.openPositions + new.holds.toNat := by
  have htale := hseat.tale
  have hcount := Chronicle.openPositions_add htale (fun h => hl (decide_eq_true h)) hm
  have hopens := htale.opens_eq
  rw [List.map_append, List.sum_append, htale.of_append.opens_eq] at hopens
  have htoNat : ∀ tale : List Event,
      ((decide (Holds tale)).toNat : Int) = if Holds tale then 1 else 0 := by
    intro tale
    by_cases h : Holds tale <;> simp [h]
  rw [hseat.holds_eq, Seat.holds]
  rw [← htoNat, ← htoNat] at hopens
  omega

/-! ## What the seats say about the desk -/

/-- The seats are those of everyone who was admitted, a place is taken for each that is not gone,
and a position is open for each run that holds one. -/
structure Counted (s : Session) : Prop where
  heard : s.desk.intake.notes = []
  seated : s.seats.length = (Desk.admitted s.desk.notes).length
  places : s.desk.intake.inProgress = s.seats.countP Seat.hasPlace
  positions : ∃ l, s.desk.ledger? = some l ∧ l.openPositions = s.seats.countP Seat.holds
  sound : ∀ t, .working t ∈ s.seats → t.run.phase.Sound

theorem length_seated (hseats : Seated s v seats)
    (h : seats.length = (Desk.admitted s.desk.notes).length) :
    v.seats.length = (Desk.admitted v.desk.notes).length := by
  obtain ⟨more, hmore, hseats⟩ := hseats
  rw [hseats, hmore, Desk.admitted_append, List.length_append, List.length_append, h,
    List.length_map]

theorem countP_holds_seated (hseats : Seated s v seats) :
    v.seats.countP Seat.holds = seats.countP Seat.holds := by
  obtain ⟨more, -, hseats⟩ := hseats
  have hnone : ((Desk.admitted more).map Seat.waiting).countP Seat.holds = 0 := by
    rw [List.countP_map]
    exact List.countP_eq_zero.mpr fun _ _ => Bool.eq_false_iff.mp (Seat.holds_of_told rfl)
  rw [hseats, List.countP_append, hnone, Nat.add_zero]

theorem working_seated {t : Trader} (hseats : Seated s v seats) (h : .working t ∈ v.seats) :
    .working t ∈ seats := by
  obtain ⟨more, -, hseats⟩ := hseats
  rw [hseats, List.mem_append] at h
  refine h.resolve_right fun hnew => ?_
  obtain ⟨opportunity, -, hwaits⟩ := List.mem_map.mp hnew
  cases hwaits

theorem countP_set_holds (new : Seat) (hk : seats[k]? = some old) :
    (seats.set k new).countP Seat.holds + old.holds.toNat =
      seats.countP Seat.holds + new.holds.toNat := by
  obtain ⟨hlt, hget⟩ := List.getElem?_eq_some_iff.mp hk
  have hpos : old.holds = true → 0 < seats.countP Seat.holds := fun h =>
    List.countP_pos_iff.mpr ⟨old, List.mem_of_getElem? hk, h⟩
  rw [List.countP_set hlt, hget]
  cases hold : old.holds with
  | true =>
    have := hpos hold
    cases new.holds <;> simp <;> omega
  | false => cases new.holds <;> simp

theorem sound_set {t : Trader} (hold : ∀ t, .working t ∈ seats → t.run.phase.Sound)
    (hnew : ∀ t, new = .working t → t.run.phase.Sound) (h : .working t ∈ seats.set k new) :
    t.run.phase.Sound := by
  rcases List.mem_or_eq_of_mem_set h with hmem | heq
  · exact hold t hmem
  · exact hnew t heq.symm

theorem Counted.quiet (h : s.Counted) (hf : Desk.Follows s.desk v.desk events)
    (hseats : Seated s v s.seats)
    (hopen : ∀ l m : Ledger, l.afterAll events = .ok m → m.openPositions = l.openPositions) :
    v.Counted where
  heard := hf.heard
  seated := length_seated hseats h.seated
  places := by
    obtain ⟨more, hmore, hseats⟩ := hseats
    rw [hseats]
    exact places_grow h.places hf hmore
  positions := by
    obtain ⟨l, hl, hcount⟩ := h.positions
    obtain ⟨m, hm, hafter⟩ := hf.ledger l hl
    exact ⟨m, hm, by rw [hopen l m hafter, hcount, countP_holds_seated hseats]⟩
  sound := fun t ht => h.sound t (working_seated hseats ht)

theorem Counted.advance (h : s.Counted) (hf : Desk.Follows s.desk v.desk events)
    (hk : s.seats[k]? = some old) (hold : old.isOn) (hnew : new.hasPlace)
    (hseats : Seated s v (s.seats.set k new))
    (hseat : SeatKept v.desk (old.told ++ events) (some new)) : v.Counted where
  heard := hf.heard
  seated := length_seated hseats (by rw [List.length_set, h.seated])
  places := by
    obtain ⟨more, hmore, hseats⟩ := hseats
    rw [hseats]
    refine places_grow ?_ hf hmore
    rw [h.places, countP_set_advance hk (Seat.hasPlace_of_isOn hold) hnew]
  positions := by
    obtain ⟨l, hl, hcount⟩ := h.positions
    obtain ⟨m, hm, hafter⟩ := hf.ledger l hl
    have hset := countP_set_holds new hk
    have hadvance := openPositions_advance hseat (fun hholds => by
      rw [hcount]
      exact List.countP_pos_iff.mpr ⟨old, List.mem_of_getElem? hk, hholds⟩) hafter
    refine ⟨m, hm, ?_⟩
    rw [countP_holds_seated hseats]
    omega
  sound := fun t ht => sound_set h.sound (by rintro t rfl; exact hseat.2.2.1)
    (working_seated hseats ht)

theorem Counted.vacate {ending : Intake.Ending} (h : s.Counted)
    (hf : Desk.Follows s.desk.relieved v.desk []) (hk : s.seats[k]? = some (.leaving ending))
    (hseats : Seated s v (s.seats.set k .gone)) : v.Counted where
  heard := hf.heard
  seated := length_seated hseats (by rw [List.length_set, h.seated])
  places := by
    obtain ⟨more, hmore, hseats⟩ := hseats
    rw [hseats]
    -- A seat that is freed has had a place until now, which the intake gives back first.
    refine places_grow (d := s.desk.relieved) ?_ hf hmore
    rw [countP_set_gone hk rfl, ← h.places]
    rfl
  positions := by
    obtain ⟨l, hl, hcount⟩ := h.positions
    obtain ⟨m, hm, hafter⟩ := hf.ledger l hl
    cases hafter
    have hset := countP_set_holds .gone hk
    have hleft : (Seat.leaving ending).holds = false := Seat.holds_of_told rfl
    have hgone : Seat.gone.holds = false := Seat.holds_of_told rfl
    rw [hleft, hgone] at hset
    refine ⟨l, hm, ?_⟩
    rw [countP_holds_seated hseats, hcount]
    exact hset.symm
  sound := fun t ht => sound_set h.sound (fun _ heq => by cases heq) (working_seated hseats ht)

theorem Counted.step (h : s.Counted) (hstep : Step s v c) : v.Counted := by
  cases hstep with
  | quiet hf hseats => exact h.quiet hf hseats (by rintro l m ⟨⟩; rfl)
  | advance hf hk hold hnew hseats hseat => exact h.advance hf hk hold hnew hseats hseat
  | vacate hf hk hseats => exact h.vacate hf hk hseats

/-! ## Turns of its own -/

/-- Nobody else publishes a trade or lets the session go. -/
def Turn.isOwn : Turn → Bool
  | .publish (.trade _ _) => false
  | .letGo => false
  | _ => true

/-- A reply to a buy does not bring a sell, nor the other way round. -/
def suits (s : Session) : Turn → Bool
  | .move move => s.fits move
  | _ => true

/-- Every turn is the session's own, all replies fit, and no run panics. -/
def turnsWell (s : Session) : List Turn → Bool
  | [] => true
  | turn :: turns =>
    turn.isOwn && s.suits turn && !(s.take turn).seats.any Seat.hasPanicked &&
      (s.take turn).turnsWell turns

theorem turnsWell_append (before after : List Turn) :
    s.turnsWell (before ++ after) =
      (s.turnsWell before && (before.foldl take s).turnsWell after) := by
  induction before generalizing s with
  | nil => rfl
  | cons turn before ih =>
    simp only [List.cons_append, turnsWell, ih, List.foldl_cons, Bool.and_assoc]

/-- What the subscriptions and the seats say about the runs at work. -/
theorem Counted.ready (h : s.Counted) (hbooked : s.IsBooked) : s.Ready := by
  have hnone : ∀ {others : List (SubscriptionId × Subscriber)}, (∀ e ∈ others, e.2 = .recorder) →
      Desk.overseers others = 0 := fun hothers =>
    List.countP_eq_zero.mpr fun e he => by simp [hothers e he]
  refine ⟨⟨?_, ?_⟩, ⟨hbooked.numbered .trade, hbooked.numbered .cycle⟩, h.heard, ?_⟩
  · obtain ⟨others, htrades, hothers⟩ := hbooked.trades
    have hrest := hnone hothers
    unfold Desk.overseers walletEntries at *
    rw [htrades, List.countP_append, hrest]
    split <;> rfl
  · obtain ⟨others, hcycles, hothers⟩ := hbooked.cycles
    have hrest := hnone hothers
    unfold Desk.overseers at *
    rw [hcycles, List.countP_cons, hrest]
    rfl
  · intro k t hk
    have hmem := List.mem_of_getElem? hk
    obtain ⟨-, -, hstop⟩ := hbooked.working t.subscription (List.mem_filterMap.mpr ⟨_, hmem, rfl⟩)
    exact ⟨hstop, h.sound t hmem⟩

theorem Counted.take (h : s.Counted) (hbooked : s.IsBooked) (hown : turn.isOwn = true)
    (hsuits : s.suits turn = true)
    (hwell : (s.take turn).seats.any Seat.hasPanicked = false) : (s.take turn).Counted := by
  have hready := h.ready hbooked
  cases turn with
  | move move => exact h.step (step_after hready move hsuits hwell)
  | enlist kind => exact ⟨h.heard, h.seated, h.places, h.positions, h.sound⟩
  | look waiter => exact ⟨h.heard, h.seated, h.places, h.positions, h.sound⟩
  | letGo => cases hown
  | publish event =>
    have hpublish : s.desk.publish event = ((s.desk.publish event).1, none) := by
      cases event with
      | trade bot fill => cases hown
      | cycle bot outcome => rfl
      | stop request => rfl
    have hf := Desk.follows_publish hready.staffed h.heard hpublish
    have hfollows : Desk.Follows s.desk (s.settle (s.desk.publish event).1).desk [event] := by
      rwa [desk_settle]
    refine h.quiet hfollows (seated_settle hf.notes) fun l m hm => ?_
    rw [Ledger.afterAll_singleton] at hm
    obtain ⟨-, -, -, -, hother⟩ := Ledger.after_spec hm
    cases event with
    | trade bot fill => cases hown
    | cycle bot outcome => exact hother rfl rfl
    | stop request => exact hother rfl rfl

/-- The invariant of a session that goes well. -/
structure Orderly (s : Session) : Prop where
  booked : s.IsBooked
  counted : s.Counted
  matched : s.desk.intake.Matched
  alert : s.desk.Alert

theorem Orderly.take (h : s.Orderly) (hown : turn.isOwn = true) (hsuits : s.suits turn = true)
    (hwell : (s.take turn).seats.any Seat.hasPanicked = false) : (s.take turn).Orderly where
  booked := h.booked.take (by rintro rfl; cases hown)
  counted := h.counted.take h.booked hown hsuits hwell
  matched := (leads_take s turn).matched h.matched
  alert := (leads_take s turn).alert h.alert

theorem Orderly.foldl {turns : List Turn} (h : s.Orderly) (hwell : s.turnsWell turns = true) :
    (turns.foldl Session.take s).Orderly := by
  induction turns generalizing s with
  | nil => exact h
  | cons turn turns ih =>
    simp only [turnsWell, Bool.and_eq_true, Bool.not_eq_true'] at hwell
    obtain ⟨⟨⟨hown, hsuits⟩, hcalm⟩, hrest⟩ := hwell
    exact ih (h.take hown hsuits hcalm) hrest

theorem orderly_create (setup : Setup) (wallet : SimulatedWallet) :
    (create setup wallet).Orderly := by
  refine ⟨isBooked_create setup wallet, ?_, ?_, ?_⟩
  · rw [create_eq]
    exact ⟨rfl, rfl, rfl, ⟨_, rfl, rfl⟩, fun t ht => by cases ht⟩
  · rw [create_eq]
    rfl
  · rw [create_eq]
    exact fun w hw => by cases hw

/-! ## Nobody is left -/

theorem all_gone (h : s.Counted) (hidle : s.desk.intake.inProgress = 0) :
    ∀ seat ∈ s.seats, seat = .gone := by
  intro seat hseat
  have hfree := List.countP_eq_zero.mp (h.places.symm.trans hidle) seat hseat
  cases seat with
  | gone => rfl
  | _ => exact absurd rfl hfree

theorem admitted_of_admissions (notes : List Desk.Note) (h : Workroom.admissions notes = []) :
    Desk.admitted notes = [] := by
  refine List.filterMap_eq_nil_iff.mpr fun n hn => ?_
  have hnone := List.filterMap_eq_nil_iff.mp h n hn
  cases n with
  | admitted index opportunity => cases hnone
  | _ => rfl

/-- Where all are gone, no turn does anything to a seat. -/
theorem seated_take (hgone : ∀ seat ∈ s.seats, seat = .gone) (turn : Turn) :
    Seated s (s.take turn) s.seats := by
  have hat : ∀ {k : Nat} {seat : Seat}, s.seats[k]? = some seat → seat = .gone := fun hk =>
    hgone _ (List.mem_of_getElem? hk)
  have hrefl := Desk.Upholds.refl s.desk
  have hbecomes := becomes_take s turn
  generalize s.take turn = v at hbecomes ⊢
  -- A seat only changes for a run that begins, goes on or leaves, and there is none.
  cases hbecomes with
  | idle => exact seated_same (List.append_nil _).symm rfl
  | @operates move op hop => exact seated_settle (hrefl.updateIntake op).notes
  | prepares change hchange => exact seated_same (List.append_nil _).symm rfl
  | begins hk hstart => cases hat hk
  | refuses hk => cases hat hk
  | replies hk => cases hat hk
  | vacates hk => cases hat hk
  | pays hdesk =>
    obtain rfl | ⟨line, rfl⟩ := hdesk
    · exact seated_same (List.append_nil _).symm rfl
    · exact seated_same rfl rfl
  | waits goal => exact seated_same (List.append_nil _).symm rfl
  | shutsDown => exact seated_settle ((Desk.lasting_upholds _).stopAll .shutdown none hrefl).notes
  | hasShutDown line => exact seated_same rfl rfl
  | publishes event => exact seated_settle ((Desk.lasting_upholds _).publish event hrefl).notes
  | enlists kind => exact seated_same (List.append_nil _).symm rfl
  | looks waiter => exact seated_same (List.append_nil _).symm rfl
  | letsGo =>
    obtain ⟨b, hdesk⟩ := letGo_desk s
    refine ⟨[], ?_, (List.append_nil _).symm⟩
    rw [hdesk]
    exact (List.append_nil _).symm

/-- Nobody is left, and nobody will come. -/
structure Deserted (s : Session) : Prop where
  gone : ∀ seat ∈ s.seats, seat = .gone
  sealed : Sealed s.desk.control

theorem Deserted.seats_take (h : s.Deserted) (hstart : turn.isStart = false) :
    (s.take turn).seats = s.seats := by
  obtain ⟨more, hmore, hseats⟩ := seated_take h.gone turn
  have hrests := ((leads_take s turn).rests hstart h.sealed).admissions
  have hnone : Workroom.admissions more = [] := by
    simp only [Desk.control, hmore, Desk.admissions_append] at hrests
    exact List.append_cancel_left (hrests.trans (List.append_nil _).symm)
  rw [hseats, admitted_of_admissions more hnone, List.map_nil, List.append_nil]

theorem Deserted.take (h : s.Deserted) (hstart : turn.isStart = false) :
    (s.take turn).Deserted where
  gone := by
    rw [h.seats_take hstart]
    exact h.gone
  sealed := ((leads_take s turn).rests hstart h.sealed).kept

theorem Deserted.asks_take (h : s.Deserted) (turn : Turn) :
    Desk.asks (s.take turn).desk.notes = Desk.asks s.desk.notes := by
  have hat : ∀ {k : Nat} {seat : Seat}, s.seats[k]? = some seat → seat = .gone := fun hk =>
    h.gone _ (List.mem_of_getElem? hk)
  by_cases hrun : turn.isRun = true
  · have hbecomes := becomes_take s turn
    generalize s.take turn = v at hbecomes ⊢
    cases hbecomes with
    | idle => rfl
    | prepares change hchange => rfl
    | begins hk hstart => cases hat hk
    | refuses hk => cases hat hk
    | replies hk => cases hat hk
    | operates hop => cases hop <;> cases hrun
    | _ => cases hrun
  · exact (leads_take s turn).asks (by simpa using hrun)

theorem Deserted.asks_foldl {turns : List Turn} (h : s.Deserted)
    (hstart : ∀ turn ∈ turns, turn.isStart = false) :
    Desk.asks (turns.foldl Session.take s).desk.notes = Desk.asks s.desk.notes := by
  induction turns generalizing s with
  | nil => rfl
  | cons turn turns ih =>
    have htaken := h.take (hstart turn List.mem_cons_self)
    exact (ih htaken fun turn hturn => hstart turn (List.mem_cons_of_mem _ hturn)).trans
      (h.asks_take turn)

/-! ## The wait for the end -/

/-- What holds from the beginning of a shutdown on; `n` is the number of the one who waits for its
end. -/
structure Closing (n : Nat) (s : Session) : Prop extends Orderly s where
  sealed : Sealed s.desk.control
  waiter : ∃ w, s.desk.waiters[n]? = some w ∧ w.goal = .idle ∧
    (w.finished = true → s.desk.intake.inProgress = 0)

theorem Closing.deserted (h : Closing n s) (hidle : s.desk.intake.inProgress = 0) : s.Deserted :=
  ⟨all_gone h.counted hidle, h.sealed⟩

theorem closing_begin (h : s.Orderly)
    (hwell : (s.take (.move .beginShutdown)).seats.any Seat.hasPanicked = false) :
    Closing s.desk.waiters.length (s.take (.move .beginShutdown)) := by
  obtain ⟨l, hl, -⟩ := h.counted.positions
  obtain ⟨o, ho, -⟩ := Option.map_eq_some_iff.mp hl
  obtain ⟨others, hstops, -⟩ := h.booked.stops
  let stopped := s.desk.stopAll .shutdown none
  have hdesk : (s.take (.move .beginShutdown)).desk = stopped.wait .idle := by
    change (s.settle stopped).desk.wait .idle = _
    rw [desk_settle]
  -- The stop leaves the others who wait where they are, so the newcomer has the next number.
  have hroll := ((Desk.lasting_upholds _).stopAll .shutdown none (.refl s.desk)).roll
  have hlength : stopped.waiters.length = s.desk.waiters.length := by
    simpa using congrArg List.length hroll
  refine ⟨h.take rfl rfl hwell, ?_, Waiter.start .idle stopped.intake, ?_, rfl, ?_⟩
  · rw [hdesk]
    exact Desk.sealed_publishStop (d := s.desk.log _) ho h.matched rfl hstops
  · rw [hdesk, ← hlength]
    exact List.getElem?_concat_length
  · intro hfinished
    rw [hdesk]
    exact beq_iff_eq.mp hfinished

theorem Closing.take (h : Closing n s) (hstart : turn.isStart = false) (hown : turn.isOwn = true)
    (hsuits : s.suits turn = true)
    (hwell : (s.take turn).seats.any Seat.hasPanicked = false) : Closing n (s.take turn) := by
  have horderly := h.toOrderly.take hown hsuits hwell
  have hleads := leads_take s turn
  obtain ⟨w, hw, hgoal, hidle⟩ := h.waiter
  obtain ⟨w', hw', hsame, hfinished⟩ := hleads.waiters n w hw
  refine ⟨horderly, (hleads.rests hstart h.sealed).kept, w', hw', hsame.trans hgoal, ?_⟩
  intro hdone
  rcases hfinished hdone with hbefore | hnow
  · -- Nothing was in progress before this turn, so nobody is left to be in progress after it.
    have hdeserted := h.deserted (hidle hbefore)
    rw [horderly.counted.places, hdeserted.seats_take hstart, ← h.counted.places, hidle hbefore]
  · rw [hgoal] at hnow
    exact beq_iff_eq.mp hnow

theorem Closing.foldl {turns : List Turn} (h : Closing n s)
    (hstart : ∀ turn ∈ turns, turn.isStart = false) (hwell : s.turnsWell turns = true) :
    Closing n (turns.foldl Session.take s) := by
  induction turns generalizing s with
  | nil => exact h
  | cons turn turns ih =>
    simp only [turnsWell, Bool.and_eq_true, Bool.not_eq_true'] at hwell
    obtain ⟨⟨⟨hown, hsuits⟩, hcalm⟩, hrest⟩ := hwell
    have htaken := h.take (hstart turn List.mem_cons_self) hown hsuits hcalm
    exact ih htaken (fun turn hturn => hstart turn (List.mem_cons_of_mem _ hturn)) hrest

/-! ## Every shutdown -/

/-- The subscriptions that a session has made itself. -/
def made (entries : List (SubscriptionId × Subscriber)) : List (SubscriptionId × Subscriber) :=
  entries.filter fun e => e.2 ≠ .recorder

theorem made_append {others : List (SubscriptionId × Subscriber)}
    (entries : List (SubscriptionId × Subscriber)) (hothers : ∀ e ∈ others, e.2 = .recorder)
    (hentries : ∀ e ∈ entries, e.2 ≠ .recorder) :
    made (entries ++ others) = entries := by
  have hnone : made others = [] :=
    List.filter_eq_nil_iff.mpr fun e he => by simp [hothers e he]
  have hall : made entries = entries :=
    List.filter_eq_self.mpr fun e he => by simp [hentries e he]
  rw [made, List.filter_append, ← made, ← made, hnone, hall, List.append_nil]

theorem made_booked {simulate : Bool} {b : Bus Subscriber} (h : Booked simulate b seats)
    (hgone : ∀ seat ∈ seats, seat = .gone) :
    made b.trades = (1, .overseer) :: walletEntries simulate ∧
      made b.cycles = [(2, .overseer)] ∧ made b.stops = [(3, .overseer)] := by
  obtain ⟨trades, htrades, htold⟩ := h.trades
  obtain ⟨cycles, hcycles, hcounted⟩ := h.cycles
  obtain ⟨stops, hstops, hasked⟩ := h.stops
  have hnobody : subscriptions seats = [] :=
    List.filterMap_eq_nil_iff.mpr fun seat hseat => by
      rw [hgone seat hseat]
      rfl
  rw [htrades, hcycles, hstops]
  refine ⟨made_append _ htold ?_, made_append [_] hcounted (by simp),
    made_append [_] (fun e he => ?_) (by simp)⟩
  · cases simulate <;> simp [walletEntries]
  · refine (hasked e he).resolve_right fun hid => ?_
    rw [hnobody] at hid
    cases hid

theorem setup_played (setup : Setup) (wallet : SimulatedWallet) (turns : List Turn) :
    (played setup wallet turns).setup = setup := by
  induction turns using List.reverseRecOn with
  | nil => rfl
  | append_singleton turns turn ih =>
    rw [played_snoc]
    exact (house_take _ turn).1.trans ih

/-- As long as a shutdown waits and is not about to look, something is in progress. When it has what
it waits for, nothing is: the intake is closed, every run is over and has left the bus, no position
is open, and nobody asks for anything any more. -/
theorem shutdown_leaves_nothing_behind (setup : Setup) (wallet : SimulatedWallet)
    (before during later : List Turn)
    (hwell : (create setup wallet).turnsWell (before ++ .move .beginShutdown :: during) = true)
    (hduring : ∀ turn ∈ during, turn.isStart = false)
    (hlater : ∀ turn ∈ later, turn.isStart = false) :
    let n := (played setup wallet before).desk.waiters.length
    let s := played setup wallet (before ++ .move .beginShutdown :: during)
    ∃ w, s.desk.waiters[n]? = some w ∧
      (w.woken = false → w.finished = false → 0 < s.desk.intake.inProgress) ∧
      (w.finished = true →
        s.desk.intake.inProgress = 0 ∧ s.desk.intake.listening = false ∧
        s.desk.intake.forced = true ∧ s.desk.intake.feed.attached = false ∧
        s.seats.length = (Desk.admitted s.desk.notes).length ∧ (∀ seat ∈ s.seats, seat = .gone) ∧
        (∃ o, s.desk.overseer = some o ∧ o.openPositions = 0) ∧
        made s.desk.bus.trades =
          (1, .overseer) :: walletEntries setup.settings.trading.simulate ∧
        made s.desk.bus.cycles = [(2, .overseer)] ∧ made s.desk.bus.stops = [(3, .overseer)] ∧
        Desk.asks (later.foldl take s).desk.notes = Desk.asks s.desk.notes) := by
  intro n s
  rw [turnsWell_append, Bool.and_eq_true] at hwell
  obtain ⟨hbefore, hwell⟩ := hwell
  simp only [turnsWell, Bool.and_eq_true, Bool.not_eq_true'] at hwell
  obtain ⟨⟨-, hcalm⟩, hrest⟩ := hwell
  have hs : s = during.foldl take ((played setup wallet before).take (.move .beginShutdown)) :=
    List.foldl_append
  -- `Orderly` holds when the shutdown begins, and `Closing` from then on.
  have hclosing : Closing n s := by
    have horderly : (played setup wallet before).Orderly :=
      (orderly_create setup wallet).foldl hbefore
    rw [hs]
    exact (closing_begin horderly hcalm).foldl hduring hrest
  obtain ⟨w, hw, hgoal, hidle⟩ := hclosing.waiter
  refine ⟨w, hw, fun hasleep hpending => ?_, fun hfinished => ?_⟩
  · have hawake := hclosing.alert w (List.mem_of_getElem? hw) hgoal
    rw [hasleep, hpending] at hawake
    simp only [Bool.false_eq_true, false_or] at hawake
    exact Nat.pos_of_ne_zero hawake
  · have hnone := hidle hfinished
    have hdeserted := hclosing.deserted hnone
    have hshut := hclosing.sealed.shut
    obtain ⟨l, hl, hopen⟩ := hclosing.counted.positions
    obtain ⟨o, ho, rfl⟩ := Option.map_eq_some_iff.mp hl
    have hfree : s.seats.countP Seat.holds = 0 := List.countP_eq_zero.mpr fun seat hseat => by
      rw [hdeserted.gone seat hseat]
      exact Bool.eq_false_iff.mp (Seat.holds_of_told rfl)
    obtain ⟨htrades, hcycles, hstops⟩ := made_booked hclosing.booked hdeserted.gone
    rw [show s.setup = setup from setup_played setup wallet _] at htrades
    exact ⟨hnone, hshut.silent, hshut.forced, hshut.detached, hclosing.counted.seated,
      hdeserted.gone, ⟨o, ho, hopen.trans hfree⟩, htrades, hcycles, hstops,
      hdeserted.asks_foldl hlater⟩

/-! ## A shutdown with a position open -/

/-- One run has bought, and another has seen nothing yet. -/
def sampleBefore : List Turn :=
  [.enlist .stop, .move (.start false), .move (.deliver false default),
    .move (.deliver false default), .move (.begin ⟨0, default⟩ 0), .move (.begin ⟨0, default⟩ 1),
    .move (.reply ⟨0, default⟩ 0 (.snapshot (.ok default))),
    .move (.reply ⟨1, default⟩ 1 (.snapshot (.error (.internal "no quote")))),
    .move (.reply ⟨5, default⟩ 0 (.order (.ok (sampleFill .buy .one)))),
    .move (.reply ⟨5, default⟩ 0 (.stored (.ok ())))]

/-- The second run leaves, and the first one sells. -/
def sampleDuring : List Turn :=
  [.move (.reply ⟨256, default⟩ 1 .rested), .move (.reply ⟨257, default⟩ 1 (.stored (.ok ()))),
    .move (.vacate 1), .look 0, .move (.reply ⟨255, default⟩ 0 .rested),
    .move (.reply ⟨255, default⟩ 0 (.snapshot (.ok default))),
    .move (.reply ⟨260, default⟩ 0 (.order (.ok (sampleFill .sell .hundred)))),
    .move (.reply ⟨261, default⟩ 0 (.stored (.ok ()))),
    .move (.reply ⟨262, default⟩ 0 (.stored (.ok ()))), .move (.vacate 0), .look 0]

def sampleLater : List Turn :=
  [.move (.deliver true default), .move (.begin ⟨300, default⟩ 2), .move .endShutdown, .letGo,
    .move (.reply ⟨301, default⟩ 0 .rested)]

theorem sample_shutdown_ends :
    (create sampleSetup ⟨.one⟩).turnsWell
        (sampleBefore ++ .move .beginShutdown :: sampleDuring) = true ∧
      (played sampleSetup ⟨.one⟩
        (sampleBefore ++ .move .beginShutdown :: sampleDuring.take 4)).isOver 0 = false ∧
      let s := played sampleSetup ⟨.one⟩ (sampleBefore ++ .move .beginShutdown :: sampleDuring)
      s.isOver 0 = true ∧ s.desk.intake.inProgress = 0 ∧ s.seats.length = 2 ∧
        (∃ o, s.desk.overseer = some o ∧ o.openPositions = 0) ∧
        made s.desk.bus.stops = [(3, .overseer)] ∧
        Desk.asks (sampleLater.foldl take s).desk.notes = Desk.asks s.desk.notes := by
  have hwell : (create sampleSetup ⟨.one⟩).turnsWell
      (sampleBefore ++ .move .beginShutdown :: sampleDuring) = true := rfl
  obtain ⟨w, hw, -, hends⟩ := shutdown_leaves_nothing_behind sampleSetup ⟨.one⟩ sampleBefore
    sampleDuring sampleLater hwell (by decide) (by decide)
  have hfirst : (played sampleSetup ⟨.one⟩ sampleBefore).desk.waiters.length = 0 := rfl
  have hover : (played sampleSetup ⟨.one⟩
      (sampleBefore ++ .move .beginShutdown :: sampleDuring)).isOver 0 = true := rfl
  have hfinished : w.finished = true := by
    have hlooked := hover
    rw [hfirst] at hw
    rw [isOver, hw] at hlooked
    exact hlooked
  obtain ⟨hidle, -, -, -, -, -, hopen, -, -, hstops, hasks⟩ := hends hfinished
  exact ⟨hwell, rfl, hover, hidle, rfl, hopen, hstops, hasks⟩

end LaunchDesk.Session
