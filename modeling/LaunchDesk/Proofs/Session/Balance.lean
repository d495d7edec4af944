import LaunchDesk.Proofs.Session.Kept

/-!
# The counts of a session

What the overseer has counted fits what the runs have published, in whatever order the moves of a
session come: positions that are open are those of runs that have bought and not sold, and once all
runs are over the balance has changed by the results of their round trips.
-/

open Finset

namespace LaunchDesk.Session

open Run Chronicle

variable {max : Option Nat} {balance : Decimal} {s : Session} {c : Chronicle} {k : Nat}

/-! ## Seats and tales -/

theorem tale_of_stance {bot : BotId} {stance : Stance} (h : stance.Sound) :
    Tale (stance.published bot) := by
  cases stance with
  | holding buy position => exact .bought bot h
  | looking => exact .nothing
  | leaving deadline => exact .nothing

theorem tale_of_phase {bot : BotId} {phase : Phase} (h : phase.Sound) :
    Tale (phase.published bot) := by
  cases phase with
  | fetching stance => exact tale_of_stance h
  | resting stance => exact tale_of_stance h
  | selling seen buy position reason => exact .bought bot h
  | closing seen buy sell position closure => exact .bought bot h.1
  | recording outcome report =>
    cases outcome with
    | completed trip => exact .told bot h
    | exited departure => exact .nothing
  | ended result =>
    cases result with
    | error fault => exact .nothing
    | ok outcome =>
      cases outcome with
      | completed trip => exact .told bot h
      | exited departure => exact .nothing
  | _ => exact .nothing

theorem tale_of_closed {tale : List Event} (h : Closed tale) : Tale tale := by
  cases h with
  | nothing => exact .nothing
  | told bot h => exact .told bot h

/-- Only a run at work can have published a buy and no sell. -/
theorem not_holds_of_closed {tale : List Event} (h : Closed tale) : ¬ Holds tale := by
  cases h with
  | nothing => simp [Holds]
  | told bot h => simp [Holds, tripEvents, isSell_trade h.sell]

theorem Fits.tale (h : Fits max balance s c) (k : Nat) : Tale (c.of k) := by
  have hseat := h.seats k
  cases hk : s.seats[k]? with
  | none =>
    rw [hk] at hseat
    exact hseat ▸ .nothing
  | some seat =>
    rw [hk] at hseat
    cases seat with
    | waiting opportunity => exact hseat ▸ .nothing
    | working t => exact hseat.2.2.2 ▸ tale_of_phase hseat.2.2.1
    | leaving ending => exact tale_of_closed hseat
    | gone => exact tale_of_closed hseat

theorem Fits.working_of_holds (h : Fits max balance s c) (hk : Holds (c.of k)) :
    ∃ t, s.seats[k]? = some (.working t) := by
  have hseat := h.seats k
  have hsome : c.of k ≠ [] := by
    obtain ⟨⟨event, hevent, -⟩, -⟩ := hk
    exact List.ne_nil_of_mem hevent
  cases hget : s.seats[k]? with
  | none =>
    rw [hget] at hseat
    exact absurd hseat hsome
  | some seat =>
    rw [hget] at hseat
    cases seat with
    | waiting opportunity => exact absurd hseat hsome
    | working t => exact ⟨t, rfl⟩
    | leaving ending => exact absurd hk (not_holds_of_closed hseat)
    | gone => exact absurd hk (not_holds_of_closed hseat)

theorem Fits.below (h : Fits max balance s c) : Below s.seats.length c := by
  intro p hp
  by_contra hlt
  have hseat := h.seats p.1
  rw [List.getElem?_eq_none (by omega)] at hseat
  have hmem : p.2 ∈ c.of p.1 := mem_of.mpr hp
  rw [show c.of p.1 = [] from hseat] at hmem
  cases hmem

theorem Fits.closed (h : Fits max balance s c) (hidle : s.desk.intake.inProgress = 0) (k : Nat) :
    Closed (c.of k) := by
  have hseat := h.seats k
  have hnone := h.places.symm.trans hidle
  cases hk : s.seats[k]? with
  | none =>
    rw [hk] at hseat
    exact hseat ▸ .nothing
  | some seat =>
    have hfree := List.countP_eq_zero.mp hnone seat (List.mem_of_getElem? hk)
    rw [hk] at hseat
    cases seat with
    | gone => exact hseat
    | _ => exact absurd rfl hfree

/-! ## Counting -/

theorem card_filter_getElem? {α : Type} (p : α → Bool) (list : List α) :
    #{k ∈ range list.length | (list[k]?).any p} = list.countP p := by
  induction list using List.reverseRecOn with
  | nil => rfl
  | append_singleton list a ih =>
    have hsame : ∀ k ∈ range list.length,
        ((list ++ [a])[k]?).any p = true ↔ (list[k]?).any p = true := by
      intro k hk
      rw [List.getElem?_append_left (mem_range.mp hk)]
    rw [List.length_append, List.length_singleton, range_add_one, filter_insert,
      filter_congr hsame, List.getElem?_concat_length, List.countP_append, List.countP_singleton,
      ← ih, Option.any_some]
    cases p a with
    | true =>
      rw [if_pos rfl, if_pos rfl, card_insert_of_notMem (by simp)]
    | false => simp

theorem Fits.card_le (h : Fits max balance s c) :
    #{k ∈ range s.seats.length | Holds (c.of k)} ≤ s.desk.intake.inProgress := by
  rw [h.places, ← card_filter_getElem?]
  refine card_le_card fun k hk => ?_
  obtain ⟨hlt, hholds⟩ := mem_filter.mp hk
  obtain ⟨t, ht⟩ := h.working_of_holds hholds
  refine mem_filter.mpr ⟨hlt, ?_⟩
  rw [ht]
  rfl

theorem trip?_of_isCycle {tale : List Event} (h : Tale tale) {event : Event}
    (hmem : event ∈ tale) : event.isCycle = event.trip?.isSome := by
  cases h with
  | nothing => cases hmem
  | bought bot hbuy =>
    obtain rfl := List.mem_singleton.mp hmem
    rfl
  | sold bot hbuy hsell =>
    simp only [List.mem_cons, List.not_mem_nil, or_false] at hmem
    rcases hmem with rfl | rfl
    · rfl
    · rfl
  | told bot h =>
    simp only [tripEvents, List.mem_cons, List.not_mem_nil, or_false] at hmem
    rcases hmem with rfl | rfl | rfl
    · rfl
    · rfl
    · rfl

/-- Every finished run that is published has finished with a round trip. -/
theorem countP_isCycle (htale : ∀ k, Tale (c.of k)) :
    c.events.countP Event.isCycle = (c.events.filterMap Event.trip?).length := by
  rw [List.length_filterMap_eq_countP]
  refine List.countP_congr fun event hevent => ?_
  obtain ⟨p, hp, rfl⟩ := List.mem_map.mp hevent
  rw [trip?_of_isCycle (htale p.1) (mem_of.mpr hp)]

theorem sells_add_openPositions {o : Ledger} (htale : ∀ k, Tale (c.of k))
    (hledger : (Ledger.mk 0 0 balance).afterAll c.events = .ok o) :
    o.openPositions + c.events.countP Event.isSell = c.events.countP Event.isBuy := by
  have hopen := openPositions_eq htale rfl hledger
  rw [sum_opens] at hopen
  omega

/-! ## Every course -/

/-- However a session goes on, as long as replies fit and no run panics: open positions are those of
runs that have bought and not sold, no sell is counted before its buy, finished round trips are
counted, and the balance follows the trades. If nothing is rounded and nothing is in progress, the
balance has changed by the results of the round trips. -/
theorem course_keeps_counts (setup : Setup) (wallet : SimulatedWallet) (moves : List Move)
    (hwell : (create setup wallet).goesWell moves) :
    let s := (course setup wallet moves).1
    let c := (course setup wallet moves).2
    ∃ o, s.desk.overseer = some o ∧
      o.openPositions = #{k ∈ range s.seats.length | Holds (c.of k)} ∧
      (∀ k, Holds (c.of k) → ∃ t, s.seats[k]? = some (.working t)) ∧
      o.openPositions + c.events.countP Event.isSell = c.events.countP Event.isBuy ∧
      o.openPositions ≤ s.desk.intake.inProgress ∧
      (∀ m, setup.settings.admission.maxConcurrent = some m →
        s.desk.intake.inProgress ≤ m.toNat) ∧
      o.completedTrades = (c.events.filterMap Event.trip?).length ∧
      (c.events.filterMap Event.delta?).foldlM Decimal.add wallet.balance = .ok o.balance ∧
      (s.desk.intake.inProgress = 0 → o.openPositions = 0) ∧
      (Exact wallet.balance c.events →
        o.balance.units = wallet.balance.units +
          ((c.events.filterMap Event.delta?).map Decimal.units).sum ∧
        (s.desk.intake.inProgress = 0 → o.balance.units = wallet.balance.units +
          ((c.events.filterMap Event.trip?).map fun trip => trip.realizedPnl.units).sum)) := by
  intro s c
  have h : Fits setup.ceiling wallet.balance s c := fits_course hwell
  obtain ⟨l, hl, hledger⟩ := h.ledger
  obtain ⟨o, ho, rfl⟩ := Option.map_eq_some_iff.mp hl
  obtain ⟨hcycles, hsum⟩ := Ledger.afterAll_spec hledger
  have hopen : o.openPositions = #{k ∈ range s.seats.length | Holds (c.of k)} :=
    openPositions_eq_card h.tale h.below rfl hledger
  have hle : o.openPositions ≤ s.desk.intake.inProgress := hopen ▸ h.card_le
  refine ⟨o, ho, hopen, fun k => h.working_of_holds, sells_add_openPositions h.tale hledger, hle,
    ?_, ?_, hsum, ?_, ?_⟩
  · intro m hm
    exact h.within m.toNat (h.ceiling.trans (by rw [Setup.ceiling, hm]; rfl))
  · rw [← countP_isCycle h.tale, ← Nat.zero_add (c.events.countP Event.isCycle)]
    exact hcycles
  · intro hidle
    omega
  · intro hexact
    exact ⟨hexact.sums.balance_eq hsum, fun hidle =>
      balance_eq_of_closed (h.closed hidle) hexact hsum⟩

/-! ## Two round trips -/

def sampleSetup : Setup where
  settings := { admission := { maxConcurrent := some 2 } }
  classify := Classifier.standard
  strategies := fun _ => eagerPlan.strategy
  names := fun k => ⟨(Uuid.ofNat? k).getD default⟩

/-- Two runs buy and sell in turns; a stop comes between the buys. -/
def sampleMoves : List Move :=
  [.start false, .deliver false default, .deliver false default,
    .begin ⟨0, default⟩ 0, .begin ⟨0, default⟩ 1,
    .reply ⟨0, default⟩ 0 (.snapshot (.ok default)),
    .reply ⟨1, default⟩ 1 (.snapshot (.ok default)),
    .reply ⟨5, default⟩ 1 (.order (.ok (sampleFill .buy .one))),
    .stop true,
    .reply ⟨5, default⟩ 0 (.order (.ok (sampleFill .buy .one))),
    .reply ⟨5, default⟩ 0 (.stored (.ok ())), .reply ⟨6, default⟩ 1 (.stored (.ok ())), .pay 0,
    .reply ⟨255, default⟩ 0 .rested, .reply ⟨256, default⟩ 1 .rested,
    .reply ⟨255, default⟩ 0 (.snapshot (.ok default)),
    .reply ⟨256, default⟩ 1 (.snapshot (.ok default)),
    .reply ⟨260, default⟩ 0 (.order (.ok (sampleFill .sell .hundred))),
    .reply ⟨261, default⟩ 1 (.order (.ok (sampleFill .sell .hundred))),
    .reply ⟨261, default⟩ 1 (.stored (.ok ())), .reply ⟨262, default⟩ 0 (.stored (.ok ())),
    .reply ⟨262, default⟩ 0 (.stored (.ok ())), .vacate 0,
    .reply ⟨263, default⟩ 1 (.stored (.ok ())), .vacate 1]

theorem sample_course_gains :
    (create sampleSetup ⟨.one⟩).goesWell sampleMoves ∧
      ∃ o, (course sampleSetup ⟨.one⟩ sampleMoves).1.desk.overseer = some o ∧
        o.openPositions = 0 ∧ o.completedTrades = 2 ∧
        o.balance.units = Decimal.one.units + 198 * Decimal.one.units := by
  have hwell : (create sampleSetup ⟨.one⟩).goesWell sampleMoves := rfl
  refine ⟨hwell, ?_⟩
  obtain ⟨o, ho, -, -, -, -, -, htrades, -, hopen, hbalance⟩ :=
    course_keeps_counts sampleSetup ⟨.one⟩ sampleMoves hwell
  have hexact : Exact .one (course sampleSetup ⟨.one⟩ sampleMoves).2.events := by decide +kernel
  exact ⟨o, ho, hopen rfl, htrades, ((hbalance hexact).2 rfl).trans rfl⟩

end LaunchDesk.Session
