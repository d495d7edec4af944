import LaunchDesk.Proofs.Overseer.Ledger
import LaunchDesk.Proofs.Run.Published
import Mathlib.Algebra.BigOperators.Ring.Finset
import Mathlib.Algebra.Order.BigOperators.Group.Finset

/-!
# Chronicles

A chronicle holds what the runs of a session have published, each event with the number of its run,
in the order of publishing. Events of different runs may come in any order. As long as every run
tells its own part of a tale, a buy and then a sell and then the round trip, the counts of the
overseer say what they ought to.
-/

open Finset

namespace LaunchDesk

open Run

abbrev Chronicle : Type := List (Nat × Event)

namespace Chronicle

variable {c : Chronicle} {k n : Nat} {event : Event} {tale : List Event} {l m : Ledger}

def events (c : Chronicle) : List Event := c.map (·.2)

def of (c : Chronicle) (k : Nat) : List Event := (c.filter (·.1 = k)).map (·.2)

/-- The part of a chronicle that one run adds. -/
def entries (k : Nat) (events : List Event) : Chronicle := events.map (k, ·)

theorem of_cons (p : Nat × Event) (c : Chronicle) (k : Nat) :
    of (p :: c) k = if p.1 = k then p.2 :: of c k else of c k := by
  unfold of
  by_cases h : p.1 = k
  · simp [h]
  · simp [h]

@[simp] theorem of_nil (k : Nat) : of [] k = [] := rfl

theorem mem_of : event ∈ c.of k ↔ (k, event) ∈ c := by
  simp [of]

theorem of_append (c d : Chronicle) (k : Nat) : of (c ++ d) k = of c k ++ of d k := by
  simp [of]

theorem of_entries (k : Nat) (events : List Event) : of (entries k events) k = events := by
  simp [of, entries, List.filter_map, Function.comp_def]

theorem of_entries_of_ne {j : Nat} (h : j ≠ k) (events : List Event) :
    of (entries j events) k = [] := by
  simp [of, entries, List.filter_map, Function.comp_def, h]

theorem events_entries (k : Nat) (list : List Event) : events (entries k list) = list := by
  simp [events, entries, Function.comp_def]

/-! ## Sums -/

/-- Every run in a chronicle has a number below `n`. -/
def Below (n : Nat) (c : Chronicle) : Prop := ∀ p ∈ c, p.1 < n

theorem sum_of (f : Event → Int) (h : Below n c) :
    ∑ k ∈ range n, ((c.of k).map f).sum = (c.events.map f).sum := by
  induction c with
  | nil => simp [of, events]
  | cons p c ih =>
    have hlt : p.1 ∈ range n := mem_range.mpr (h p List.mem_cons_self)
    have hrest := ih fun q hq => h q (List.mem_cons_of_mem p hq)
    -- The first event counts for its own run and for no other.
    have hsplit : ∀ k, ((of (p :: c) k).map f).sum =
        (if p.1 = k then f p.2 else 0) + ((of c k).map f).sum := by
      intro k
      rw [of_cons]
      split
      · rw [List.map_cons, List.sum_cons]
      · rw [zero_add]
    simp only [hsplit, sum_add_distrib, hrest, sum_ite_eq, if_pos hlt]
    rfl

/-! ## Tales -/

/-- What a run has published at any time. -/
inductive Tale : List Event → Prop
  | nothing : Tale []
  | bought (bot : BotId) {buy : Fill} (h : buy.side = .buy) : Tale [.trade bot buy]
  | sold (bot : BotId) {buy sell : Fill} (hbuy : buy.side = .buy) (hsell : sell.side = .sell) :
    Tale [.trade bot buy, .trade bot sell]
  | told (bot : BotId) {trip : RoundTrip} (h : IsTrip trip) :
    Tale (tripEvents bot trip)

/-- A run has published a buy and no sell. -/
def Holds (events : List Event) : Prop :=
  (∃ event ∈ events, event.isBuy) ∧ ∀ event ∈ events, event.isSell = false

instance : DecidablePred Holds := fun _ => inferInstanceAs (Decidable (_ ∧ _))

def opens (event : Event) : Int := event.isBuy.toNat - event.isSell.toNat

theorem isBuy_trade {bot : BotId} {fill : Fill} (h : fill.side = .buy) :
    (Event.trade bot fill).isBuy = true ∧ (Event.trade bot fill).isSell = false := by
  simp [Event.isBuy, Event.isSell, h]

theorem isSell_trade {bot : BotId} {fill : Fill} (h : fill.side = .sell) :
    (Event.trade bot fill).isBuy = false ∧ (Event.trade bot fill).isSell = true := by
  simp [Event.isBuy, Event.isSell, h]

theorem not_isSell_of_isBuy (h : event.isBuy = true) : event.isSell = false := by
  cases event with
  | trade bot fill => exact (isBuy_trade (of_decide_eq_true h)).2
  | cycle bot outcome => rfl
  | stop request => rfl

theorem isBuy_cycle (bot : BotId) (outcome : Outcome) :
    (Event.cycle bot outcome).isBuy = false ∧ (Event.cycle bot outcome).isSell = false :=
  ⟨rfl, rfl⟩

/-- A tale opens one position if it holds a buy and no sell, and else none. -/
theorem Tale.opens_eq (h : Tale tale) :
    (tale.map opens).sum = if Holds tale then 1 else 0 := by
  cases h with
  | nothing => simp [Holds]
  | bought bot hbuy => simp [Holds, opens, isBuy_trade hbuy]
  | sold bot hbuy hsell => simp [Holds, opens, isBuy_trade hbuy, isSell_trade hsell]
  | told bot h =>
    simp [tripEvents, Holds, opens, isBuy_trade h.buy, isSell_trade h.sell, isBuy_cycle]

theorem Tale.of_snoc (h : Tale (tale ++ [event])) : Tale tale ∧ (event.isSell → Holds tale) := by
  generalize hlist : tale ++ [event] = list at h
  cases h with
  | nothing => simp at hlist
  | bought bot hbuy =>
    obtain ⟨rfl, hevent⟩ := List.append_inj' (hlist.trans (List.nil_append _).symm) rfl
    cases hevent
    exact ⟨.nothing, by simp [isBuy_trade hbuy]⟩
  | sold bot hbuy hsell =>
    obtain ⟨rfl, hevent⟩ := List.append_inj' (hlist.trans (List.singleton_append).symm) rfl
    exact ⟨.bought bot hbuy, by simp [Holds, isBuy_trade hbuy]⟩
  | @told bot trip h =>
    have hsplit : tale ++ [event] =
        [.trade bot trip.buy, .trade bot trip.sell] ++ [.cycle bot (.completed trip)] := hlist
    obtain ⟨rfl, hevent⟩ := List.append_inj' hsplit rfl
    cases hevent
    exact ⟨.sold bot h.buy h.sell, by simp [isBuy_cycle]⟩

theorem Tale.of_append {more : List Event} (h : Tale (tale ++ more)) : Tale tale := by
  induction more using List.reverseRecOn with
  | nil => rwa [List.append_nil] at h
  | append_singleton more event ih =>
    rw [← List.append_assoc] at h
    exact ih h.of_snoc.1

/-! ## Open positions -/

theorem exists_below (c : Chronicle) : ∃ n, Below n c := by
  induction c with
  | nil => exact ⟨0, by simp [Below]⟩
  | cons p c ih =>
    obtain ⟨n, hn⟩ := ih
    refine ⟨max n (p.1 + 1), fun q hq => ?_⟩
    rcases List.mem_cons.mp hq with rfl | hq
    · omega
    · have := hn q hq
      omega

theorem sum_opens (events : List Event) :
    (events.map opens).sum = events.countP Event.isBuy - events.countP Event.isSell := by
  induction events with
  | nil => rfl
  | cons event events ih =>
    rw [List.map_cons, List.sum_cons, ih, opens, List.countP_cons, List.countP_cons]
    cases event.isBuy <;> cases event.isSell <;> simp <;> omega

theorem tales_of_snoc {p : Nat × Event} (h : ∀ k, Tale (of (c ++ [p]) k)) :
    (∀ k, Tale (c.of k)) ∧ (p.2.isSell → Holds (c.of p.1)) := by
  have hself : of (c ++ [p]) p.1 = c.of p.1 ++ [p.2] := by
    rw [of_append, of_cons, if_pos rfl]
    rfl
  have htold := h p.1
  rw [hself] at htold
  refine ⟨fun k => ?_, htold.of_snoc.2⟩
  by_cases hk : p.1 = k
  · exact hk ▸ htold.of_snoc.1
  · have hother := h k
    rwa [of_append, of_cons, if_neg hk, of_nil, List.append_nil] at hother

theorem one_le_sum_opens (h : ∀ k, Tale (c.of k)) (hk : Holds (c.of k)) :
    1 ≤ (c.events.map opens).sum := by
  obtain ⟨n, hn⟩ := exists_below c
  have hnonneg : ∀ j ∈ range n, 0 ≤ ((c.of j).map opens).sum := by
    intro j _
    rw [(h j).opens_eq]
    split
    · decide
    · decide
  have hmem : k ∈ range n := by
    obtain ⟨⟨event, hevent, -⟩, -⟩ := hk
    exact mem_range.mpr (hn _ (mem_of.mp hevent))
  have hle := single_le_sum hnonneg hmem
  rw [(h k).opens_eq, if_pos hk, sum_of opens hn] at hle
  exact hle

/-- The count changes by the position that an event opens, if a sell finds one to take off. -/
theorem openPositions_after (hm : l.after event = .ok m)
    (hsell : event.isSell → 1 ≤ l.openPositions) :
    (m.openPositions : Int) = l.openPositions + opens event := by
  obtain ⟨-, -, hbuy, hless, hother⟩ := Ledger.after_spec hm
  rw [opens]
  cases hb : event.isBuy with
  | true =>
    rw [hbuy hb, not_isSell_of_isBuy hb]
    simp
  | false =>
    cases hs : event.isSell with
    | true =>
      have hone := hsell hs
      rw [hless hs]
      simp only [Bool.toNat_true, Bool.toNat_false]
      omega
    | false =>
      rw [hother hb hs]
      simp

/-- The overseer takes a sell off its count only after it has counted the buy, so it always has as
many open positions as there were more buys than sells. -/
theorem openPositions_eq (h : ∀ k, Tale (c.of k)) (hl : l.openPositions = 0)
    (hm : l.afterAll c.events = .ok m) : (m.openPositions : Int) = (c.events.map opens).sum := by
  induction c using List.reverseRecOn generalizing m with
  | nil =>
    cases hm
    simp [hl, events]
  | append_singleton c p ih =>
    have hevents : events (c ++ [p]) = events c ++ [p.2] := by simp [events]
    rw [hevents] at hm ⊢
    obtain ⟨htales, hheld⟩ := tales_of_snoc h
    obtain ⟨mid, hmid, hlast⟩ := Ledger.afterAll_snoc hm
    have hbefore := ih htales hmid
    have hstep := openPositions_after hlast fun hs => by
      -- The buy of this run has been counted, so there is something to take one from.
      have hone := one_le_sum_opens htales (hheld hs)
      omega
    rw [List.map_append, List.sum_append, ← hbefore, hstep, List.map_singleton, List.sum_singleton]

/-- The same while one run goes on with its tale, beside others that have positions open. -/
theorem openPositions_add {told : List Event} (htale : Tale (told ++ tale))
    (hl : Holds told → 1 ≤ l.openPositions) (hm : l.afterAll tale = .ok m) :
    (m.openPositions : Int) = l.openPositions + (tale.map opens).sum := by
  induction tale using List.reverseRecOn generalizing m with
  | nil =>
    cases hm
    simp
  | append_singleton tale event ih =>
    rw [← List.append_assoc] at htale
    obtain ⟨hbefore, hheld⟩ := htale.of_snoc
    obtain ⟨mid, hmid, hlast⟩ := Ledger.afterAll_snoc hm
    have hcount := ih hbefore hmid
    have hstep := openPositions_after hlast fun hs => by
      -- Either the position was open before, or it was opened meanwhile.
      have hopens := hbefore.opens_eq
      rw [if_pos (hheld hs), List.map_append, List.sum_append, hbefore.of_append.opens_eq] at hopens
      split at hopens
      · next htold =>
        have hone := hl htold
        omega
      · omega
    rw [hstep, hcount, List.map_append, List.sum_append, List.map_singleton, List.sum_singleton]
    omega

theorem openPositions_eq_card (h : ∀ k, Tale (c.of k)) (hn : Below n c) (hl : l.openPositions = 0)
    (hm : l.afterAll c.events = .ok m) :
    m.openPositions = #{k ∈ range n | Holds (c.of k)} := by
  have hsum := openPositions_eq h hl hm
  rw [← sum_of opens hn] at hsum
  simp only [fun k => (h k).opens_eq, sum_boole] at hsum
  exact_mod_cast hsum

/-! ## The balance -/

/-- None of the sums is rounded when amounts are added to a balance one after the other. -/
def ExactSums : Decimal → List Decimal → Prop
  | _, [] => True
  | balance, delta :: rest => ∀ sum, balance.add delta = .ok sum →
    sum.units = balance.units + delta.units ∧ ExactSums sum rest

/-- Nothing is rounded, neither in the balance nor in the result of a round trip. -/
structure Exact (balance : Decimal) (events : List Event) : Prop where
  sums : ExactSums balance (events.filterMap Event.delta?)
  results : ∀ trip ∈ events.filterMap Event.trip?,
    trip.realizedPnl.units = trip.sell.netAmount.units - trip.buy.netAmount.units

instance decidableExactSums (balance : Decimal) :
    (deltas : List Decimal) → Decidable (ExactSums balance deltas)
  | [] => isTrue trivial
  | delta :: rest =>
    match h : balance.add delta with
    | .error _ => isTrue fun _ hsum => nomatch h.symm.trans hsum
    | .ok sum =>
      have := decidableExactSums sum rest
      decidable_of_iff
        (sum.units = balance.units + delta.units ∧ ExactSums sum rest)
        ⟨fun hsum _ heq => Except.ok.inj (h.symm.trans heq) ▸ hsum, fun hall => hall sum h⟩

instance (balance : Decimal) (events : List Event) : Decidable (Exact balance events) :=
  decidable_of_iff (_ ∧ _) ⟨fun h => ⟨h.1, h.2⟩, fun h => ⟨h.sums, h.results⟩⟩

theorem ExactSums.balance_eq {balance result : Decimal} {deltas : List Decimal}
    (h : ExactSums balance deltas) (hsum : deltas.foldlM Decimal.add balance = .ok result) :
    result.units = balance.units + (deltas.map Decimal.units).sum := by
  induction deltas generalizing balance with
  | nil =>
    cases hsum
    simp
  | cons delta rest ih =>
    rw [List.foldlM_cons] at hsum
    cases hadd : balance.add delta with
    | error fault =>
      rw [hadd] at hsum
      cases hsum
    | ok sum =>
      rw [hadd] at hsum
      obtain ⟨hunits, hrest⟩ := h sum hadd
      rw [ih hrest hsum, hunits, List.map_cons, List.sum_cons, add_assoc]

def deltaUnits (event : Event) : Int := (event.delta?.map Decimal.units).getD 0

def pnlUnits (event : Event) : Int := (event.trip?.map fun trip => trip.realizedPnl.units).getD 0

theorem sum_filterMap {α : Type} (f : Event → Option α) (g : α → Int) (events : List Event) :
    ((events.filterMap f).map g).sum = (events.map fun event => ((f event).map g).getD 0).sum := by
  induction events with
  | nil => rfl
  | cons event events ih =>
    cases h : f event with
    | none => simp [h, ih]
    | some a => simp [h, ih]

/-- A run has published nothing, or the whole of its round trip. -/
inductive Closed : List Event → Prop
  | nothing : Closed []
  | told (bot : BotId) {trip : RoundTrip} (h : IsTrip trip) :
    Closed (tripEvents bot trip)

theorem units_delta_buy {fill : Fill} (h : fill.side = .buy) :
    fill.balanceDelta.units = -fill.netAmount.units := by
  rw [Fill.balanceDelta, h]
  exact Decimal.units_neg fill.netAmount

theorem units_delta_sell {fill : Fill} (h : fill.side = .sell) :
    fill.balanceDelta.units = fill.netAmount.units := by
  rw [Fill.balanceDelta, h]

theorem Closed.sum_eq (h : Closed tale)
    (hexact : ∀ trip ∈ tale.filterMap Event.trip?,
      trip.realizedPnl.units = trip.sell.netAmount.units - trip.buy.netAmount.units) :
    (tale.map deltaUnits).sum = (tale.map pnlUnits).sum := by
  cases h with
  | nothing => rfl
  | @told bot trip h =>
    have hpnl := hexact trip (by simp [tripEvents, Event.trip?])
    have hbuy := units_delta_buy h.buy
    have hsell := units_delta_sell h.sell
    simp only [tripEvents, List.map_cons, List.map_nil, List.sum_cons, List.sum_nil, deltaUnits,
      pnlUnits, Event.delta?, Event.trip?, Option.map_some, Option.map_none, Option.getD_some,
      Option.getD_none]
    omega

/-- When every run has published nothing or its whole round trip, the balance has changed by the
results of the round trips. -/
theorem balance_eq_of_closed {balance result : Decimal} (h : ∀ k, Closed (c.of k))
    (hexact : Exact balance c.events)
    (hsum : (c.events.filterMap Event.delta?).foldlM Decimal.add balance = .ok result) :
    result.units = balance.units +
      ((c.events.filterMap Event.trip?).map fun trip => trip.realizedPnl.units).sum := by
  obtain ⟨n, hn⟩ := exists_below c
  have hruns : ∀ k ∈ range n, ((c.of k).map deltaUnits).sum = ((c.of k).map pnlUnits).sum := by
    intro k _
    refine (h k).sum_eq fun trip htrip => hexact.results trip ?_
    obtain ⟨event, hevent, hsome⟩ := List.mem_filterMap.mp htrip
    exact List.mem_filterMap.mpr ⟨event, List.mem_map.mpr ⟨_, mem_of.mp hevent, rfl⟩, hsome⟩
  have htotal := sum_congr rfl hruns
  rw [sum_of deltaUnits hn, sum_of pnlUnits hn] at htotal
  rw [hexact.sums.balance_eq hsum, sum_filterMap, sum_filterMap]
  exact congrArg (balance.units + ·) htotal

end Chronicle

end LaunchDesk
