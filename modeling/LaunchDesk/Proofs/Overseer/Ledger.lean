import LaunchDesk.Overseer
import Mathlib.Data.List.Induction

/-!
# The ledger

What the overseer counts follows from the events that it is told of. `Ledger.after` says how, and
the overseer keeps to it whatever else it does.
-/

namespace LaunchDesk

/-! ## Amounts -/

namespace Decimal

/-- A decimal as a whole number of the smallest units that any decimal can have. -/
def units (a : Decimal) : Int := a.scaledTo maxScale

theorem units_neg (a : Decimal) : a.neg.units = -a.units := by
  unfold units scaledTo neg
  cases a.negative with
  | true => simp
  | false => simp

end Decimal

/-! ## Events -/

namespace Event

def isBuy : Event → Bool
  | .trade _ fill => fill.side = .buy
  | _ => false

def isSell : Event → Bool
  | .trade _ fill => fill.side = .sell
  | _ => false

def delta? : Event → Option Decimal
  | .trade _ fill => some fill.balanceDelta
  | _ => none

/-- The round trip of a run that has finished with one. -/
def trip? : Event → Option RoundTrip
  | .cycle _ (.completed trip) => some trip
  | _ => none

def isCycle : Event → Bool
  | .cycle _ _ => true
  | _ => false

end Event

/-! ## The ledger after events -/

structure Ledger where
  openPositions : Nat
  completedTrades : Nat
  balance : Decimal

namespace Ledger

variable {l m : Ledger} {events : List Event} {event : Event}

def openAfter (openPositions : Nat) : Side → Nat
  | .buy => openPositions + 1
  | .sell => openPositions - 1

def after (l : Ledger) : Event → Except Decimal.Fault Ledger
  | .trade _ fill =>
    (l.balance.add fill.balanceDelta).map fun balance =>
      { l with balance := balance, openPositions := openAfter l.openPositions fill.side }
  | .cycle _ _ => .ok { l with completedTrades := l.completedTrades + 1 }
  | .stop _ => .ok l

def afterAll (l : Ledger) (events : List Event) : Except Decimal.Fault Ledger :=
  events.foldlM after l

@[simp] theorem afterAll_nil (l : Ledger) : l.afterAll [] = .ok l := rfl

theorem afterAll_singleton (l : Ledger) (event : Event) : l.afterAll [event] = l.after event := by
  unfold afterAll
  simp only [List.foldlM_cons, List.foldlM_nil, bind_pure]

theorem afterAll_append (more : List Event) (h : l.afterAll events = .ok m) :
    l.afterAll (events ++ more) = m.afterAll more := by
  unfold afterAll at h ⊢
  rw [List.foldlM_append, h]
  rfl

theorem afterAll_snoc (h : l.afterAll (events ++ [event]) = .ok m) :
    ∃ k, l.afterAll events = .ok k ∧ k.after event = .ok m := by
  cases hk : l.afterAll events with
  | error fault =>
    unfold afterAll at h hk
    rw [List.foldlM_append, hk] at h
    cases h
  | ok k =>
    rw [afterAll_append [event] hk, afterAll_singleton] at h
    exact ⟨k, rfl, h⟩

/-! ## What a ledger says -/

theorem after_spec (h : l.after event = .ok m) :
    m.completedTrades = l.completedTrades + event.isCycle.toNat ∧
      event.delta?.toList.foldlM Decimal.add l.balance = .ok m.balance ∧
      (event.isBuy → m.openPositions = l.openPositions + 1) ∧
      (event.isSell → m.openPositions = l.openPositions - 1) ∧
      (event.isBuy = false → event.isSell = false → m.openPositions = l.openPositions) := by
  cases event with
  | trade bot fill =>
    simp only [after] at h
    cases hadd : l.balance.add fill.balanceDelta with
    | error fault =>
      rw [hadd] at h
      cases h
    | ok balance =>
      rw [hadd] at h
      cases h
      refine ⟨rfl, ?_, ?_⟩
      · simp [Event.delta?, hadd]
      · cases hside : fill.side with
        | buy => simp [Event.isBuy, Event.isSell, openAfter, hside]
        | sell => simp [Event.isBuy, Event.isSell, openAfter, hside]
  | cycle bot outcome =>
    cases h
    exact ⟨rfl, rfl, by simp [Event.isBuy], by simp [Event.isSell], fun _ _ => rfl⟩
  | stop request =>
    cases h
    exact ⟨rfl, rfl, by simp [Event.isBuy], by simp [Event.isSell], fun _ _ => rfl⟩

/-- The round trips are those that were told of, and the balance is what it was with every trade
added in turn. -/
theorem afterAll_spec (h : l.afterAll events = .ok m) :
    m.completedTrades = l.completedTrades + events.countP Event.isCycle ∧
      (events.filterMap Event.delta?).foldlM Decimal.add l.balance = .ok m.balance := by
  induction events using List.reverseRecOn generalizing m with
  | nil =>
    cases h
    exact ⟨rfl, rfl⟩
  | append_singleton events event ih =>
    obtain ⟨k, hk, hm⟩ := afterAll_snoc h
    obtain ⟨htrades, hbalance⟩ := ih hk
    obtain ⟨htrade, hadd, -⟩ := after_spec hm
    constructor
    · rw [htrade, htrades, List.countP_append, List.countP_singleton, Nat.add_assoc]
      cases event.isCycle with
      | true => rfl
      | false => rfl
    · rw [List.filterMap_append, List.foldlM_append, hbalance]
      change (List.filterMap Event.delta? [event]).foldlM Decimal.add k.balance = _
      rw [← hadd]
      cases hdelta : event.delta? with
      | none => simp [hdelta]
      | some delta => simp [hdelta]

end Ledger

/-! ## The overseer's ledger -/

namespace Overseer

def ledger (o : Overseer) : Ledger := ⟨o.openPositions, o.completedTrades, o.balance⟩

theorem count_ledger {o p : Overseer} {fill : Fill} (bot : BotId) (h : o.count fill = .ok p) :
    o.ledger.after (.trade bot fill) = .ok p.ledger := by
  unfold count at h
  simp only [Ledger.after, ledger]
  cases hadd : o.balance.add fill.balanceDelta with
  | error fault =>
    rw [hadd] at h
    cases h
  | ok balance =>
    rw [hadd] at h
    cases h
    cases fill.side with
    | buy => rfl
    | sell => rfl

theorem onTrade_ledger {o : Overseer} {bot : BotId} {fill : Fill}
    {next : Overseer × List Reaction} (h : o.onTrade bot fill = .ok next) :
    o.ledger.after (.trade bot fill) = .ok next.1.ledger := by
  unfold onTrade at h
  cases hcount : o.count fill with
  | error fault =>
    rw [hcount] at h
    cases h
  | ok p =>
    rw [hcount] at h
    cases h
    have hledger := count_ledger bot hcount
    exact hledger

theorem onCycle_ledger (o : Overseer) (bot : BotId) (outcome : Outcome) :
    o.ledger.after (.cycle bot outcome) = .ok (o.onCycle bot outcome).1.ledger := rfl

theorem onStop_ledger (o : Overseer) (request : StopRequest) :
    (o.onStop request).1.ledger = o.ledger := by
  unfold onStop
  cases request.isScoped with
  | true => rfl
  | false => rfl

end Overseer

end LaunchDesk
