import LaunchDesk.Proofs.Session.Steps

/-!
# What a session keeps

The invariant of a course is `Kept`: the ledger of the overseer follows from the chronicle, a place
is taken for every seat that is not gone, and each seat says what its run has published. Every move
keeps it.
-/

namespace LaunchDesk.Session

open Run

/-- The desk, the seats and the chronicle of a session fit together. -/
structure Kept (max : Option Nat) (balance : Decimal) (d : Desk) (seats : List Seat)
    (c : Chronicle) : Prop where
  staffed : d.Staffed
  numbered : d.IsNumbered
  heard : d.intake.notes = []
  ceiling : d.intake.maxConcurrent = max
  within : d.intake.WithinCeiling
  places : d.intake.inProgress = seats.countP Seat.hasPlace
  ledger : ∃ m, d.ledger? = some m ∧ (Ledger.mk 0 0 balance).afterAll c.events = .ok m
  seats : ∀ k : Nat, SeatKept d (c.of k) seats[k]?

variable {max : Option Nat} {balance : Decimal} {d e : Desk} {seats seats' : List Seat}
variable {c : Chronicle} {s : Session} {k : Nat} {events : List Event} {more : List Desk.Note}
variable {old new : Seat}

theorem SeatKept.follows {seat : Option Seat} (h : SeatKept d events seat) {list : List Event}
    (hf : Desk.Follows d e list) : SeatKept e events seat := by
  rcases seat with _ | seat
  · exact h
  · cases seat with
    | waiting opportunity => exact h
    | working t => exact ⟨hf.isStopOnly h.1, h.2⟩
    | leaving ending => exact h
    | gone => exact h

theorem Kept.of_follows (h : Kept max balance d seats c) (hf : Desk.Follows d e events)
    (hmore : e.notes = d.notes ++ more)
    (hplaces : seats'.countP Seat.hasPlace = seats.countP Seat.hasPlace)
    (hseats : ∀ j : Nat, SeatKept e ((c ++ Chronicle.entries k events).of j) seats'[j]?) :
    Kept max balance e (seats' ++ (Desk.admitted more).map .waiting)
      (c ++ Chronicle.entries k events) where
  staffed := hf.staffed h.staffed
  numbered := hf.isNumbered h.numbered
  heard := hf.heard
  ceiling := hf.ceiling.trans h.ceiling
  within := hf.within h.within
  places := places_grow (h.places.trans hplaces.symm) hf hmore
  ledger := by
    obtain ⟨m, hm, hsum⟩ := h.ledger
    obtain ⟨n, hn, hnext⟩ := hf.ledger m hm
    refine ⟨n, hn, ?_⟩
    have hevents : Chronicle.events (c ++ Chronicle.entries k events) = c.events ++ events := by
      rw [Chronicle.events, List.map_append]
      exact congrArg (c.events ++ ·) (Chronicle.events_entries k events)
    rw [hevents, Ledger.afterAll_append events hsum, hnext]
  seats := by
    intro j
    have hj := hseats j
    by_cases hlt : j < seats'.length
    · rwa [List.getElem?_append_left hlt]
    · -- A seat behind the old ones is new, and nothing has been published for it.
      rw [List.getElem?_eq_none (by omega)] at hj
      rw [List.getElem?_append_right (by omega), List.getElem?_map]
      cases (Desk.admitted more)[j - seats'.length]? with
      | none => exact hj
      | some opportunity => exact hj

theorem Kept.grow (h : Kept max balance d seats c) (hf : Desk.Follows d e [])
    (hmore : e.notes = d.notes ++ more) :
    Kept max balance e (seats ++ (Desk.admitted more).map .waiting) c := by
  have hsame : c ++ Chronicle.entries 0 [] = c := List.append_nil c
  rw [← hsame]
  refine h.of_follows hf hmore rfl fun j => ?_
  rw [hsame]
  exact (h.seats j).follows hf

theorem Kept.advance (h : Kept max balance d seats c) (hf : Desk.Follows d e events)
    (hmore : e.notes = d.notes ++ more) (hk : seats[k]? = some old) (hold : old.hasPlace)
    (hnew : new.hasPlace) (hseat : SeatKept e (c.of k ++ events) (some new)) :
    Kept max balance e (seats.set k new ++ (Desk.admitted more).map .waiting)
      (c ++ Chronicle.entries k events) := by
  obtain ⟨hlt, -⟩ := List.getElem?_eq_some_iff.mp hk
  refine h.of_follows hf hmore (countP_set_advance hk hold hnew) fun j => ?_
  rw [Chronicle.of_append]
  by_cases hj : k = j
  · rw [← hj, Chronicle.of_entries, List.getElem?_set_self hlt]
    exact hseat
  · rw [Chronicle.of_entries_of_ne hj, List.append_nil, List.getElem?_set_ne hj]
    exact (h.seats j).follows hf

theorem Kept.relieved {ending : Intake.Ending} (h : Kept max balance d seats c)
    (hk : seats[k]? = some (.leaving ending)) :
    Kept max balance d.relieved (seats.set k .gone) c where
  staffed := ⟨h.staffed.trades, h.staffed.cycles⟩
  numbered := h.numbered
  heard := h.heard
  ceiling := h.ceiling
  within := fun m hm => Nat.le_trans (Nat.sub_le _ 1) (h.within m hm)
  places := by
    change d.intake.inProgress - 1 = _
    rw [h.places, countP_set_gone hk rfl]
  ledger := h.ledger
  seats := by
    intro j
    obtain ⟨hlt, hget⟩ := List.getElem?_eq_some_iff.mp hk
    have hj := h.seats j
    by_cases hne : k = j
    · rw [← hne, hk] at hj
      rw [← hne, List.getElem?_set_self hlt]
      exact hj
    · rw [List.getElem?_set_ne hne]
      cases hseat : seats[j]? with
      | none =>
        rw [hseat] at hj
        exact hj
      | some seat =>
        rw [hseat] at hj
        cases seat with
        | _ => exact hj

/-! ## Every move -/

/-- A session whose desk and seats fit together with a chronicle. -/
def Fits (max : Option Nat) (balance : Decimal) (s : Session) (c : Chronicle) : Prop :=
  Kept max balance s.desk s.seats c

theorem Fits.ready (h : Fits max balance s c) : s.Ready where
  staffed := h.staffed
  numbered := h.numbered
  heard := h.heard
  runs := by
    intro k t hk
    have hseat := h.seats k
    rw [hk] at hseat
    exact ⟨hseat.1, hseat.2.2.1⟩

theorem Fits.step {v : Session} {further : Chronicle} (h : Fits max balance s c)
    (hstep : Step s v further) : Fits max balance v (c ++ further) := by
  cases hstep with
  | quiet hf hseats =>
    obtain ⟨more, hmore, hseats⟩ := hseats
    rw [List.append_nil, Fits, hseats]
    exact h.grow hf hmore
  | @advance k old new events hf hk hold hnew hseats hseat =>
    obtain ⟨more, hmore, hseats⟩ := hseats
    have htold := h.seats k
    rw [hk] at htold
    rw [Fits, hseats]
    refine Kept.advance h hf hmore hk (Seat.hasPlace_of_isOn hold) hnew ?_
    rwa [htold.told_eq hold]
  | @vacate k ending hf hk hseats =>
    obtain ⟨more, hmore, hseats⟩ := hseats
    rw [List.append_nil, Fits, hseats]
    exact (Kept.relieved h hk).grow hf hmore

/-- Every move keeps the desk, the seats and the chronicle fitting together. -/
theorem Fits.after (h : Fits max balance s c) (move : Move) (hfits : s.fits move)
    (hwell : (s.after move).seats.any Seat.hasPanicked = false) :
    Fits max balance (s.after move) (c ++ s.published move) :=
  h.step (step_after h.ready move hfits hwell)

/-! ## Every course -/

def Setup.ceiling (setup : Setup) : Option Nat :=
  setup.settings.admission.maxConcurrent.map UInt64.toNat

def appointed (setup : Setup) (balance : Decimal) : Desk :=
  (Desk.appoint { intake := { maxConcurrent := setup.ceiling } } setup.settings.limits balance).2

theorem kept_appointed (setup : Setup) (balance : Decimal) :
    Kept setup.ceiling balance (appointed setup balance) [] [] where
  staffed := ⟨rfl, rfl⟩
  numbered := by
    have hlist : ∀ e ∈ [(1, Subscriber.overseer), (2, Subscriber.overseer)], e.1 < 4 := by decide
    constructor
    · exact fun e he => hlist e (List.mem_cons.mpr (.inl (List.mem_singleton.mp he)))
    · exact fun e he => hlist e (List.mem_cons_of_mem _ he)
  heard := rfl
  ceiling := rfl
  within := fun _ _ => Nat.zero_le _
  places := rfl
  ledger := ⟨_, rfl, rfl⟩
  seats := fun _ => rfl

theorem kept_subscribed (setup : Setup) (balance : Decimal) :
    Kept setup.ceiling balance ((appointed setup balance).subscribe .trade .wallet).2 [] [] :=
  { kept_appointed setup balance with
    staffed := ⟨rfl, rfl⟩
    numbered := by
      have hlist : ∀ e ∈ [(1, Subscriber.overseer), (4, Subscriber.wallet)], e.1 < 5 := by decide
      refine ⟨hlist, fun e he => ?_⟩
      obtain rfl := List.mem_singleton.mp he
      exact (by decide : 2 < 5)
    seats := fun _ => rfl }

theorem fits_create (setup : Setup) (wallet : SimulatedWallet) :
    Fits setup.ceiling wallet.balance (create setup wallet) [] := by
  have hready : ∀ {d : Desk}, Kept setup.ceiling wallet.balance d [] [] →
      Kept setup.ceiling wallet.balance (d.log (readyLine setup.settings wallet.balance)) [] [] :=
    fun h => h.grow (Desk.follows_log _ h.heard) rfl
  unfold create Fits
  by_cases hsimulate : setup.settings.trading.simulate
  · simp only [hsimulate]
    exact hready (kept_subscribed setup wallet.balance)
  · simp only [hsimulate]
    exact hready (kept_appointed setup wallet.balance)

theorem fits_foldl {moves : List Move} (h : Fits max balance s c) (hwell : s.goesWell moves) :
    Fits max balance (moves.foldl proceedBy (s, c)).1 (moves.foldl proceedBy (s, c)).2 := by
  induction moves generalizing s c with
  | nil => exact h
  | cons move moves ih =>
    simp only [goesWell, Bool.and_eq_true, Bool.not_eq_true'] at hwell
    obtain ⟨⟨hfits, hcalm⟩, hrest⟩ := hwell
    exact ih (h.after move hfits hcalm) hrest

theorem fits_course {setup : Setup} {wallet : SimulatedWallet} {moves : List Move}
    (h : (create setup wallet).goesWell moves) :
    Fits setup.ceiling wallet.balance (course setup wallet moves).1
      (course setup wallet moves).2 :=
  fits_foldl (fits_create setup wallet) h

end LaunchDesk.Session
