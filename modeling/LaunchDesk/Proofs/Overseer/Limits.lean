import LaunchDesk.Proofs.Desk.Reactions

/-!
# The overseer at its limits

Whether a limit is reached can be read off the ledger. As long as nothing else is stopped, a buy
pauses the intake if it brings positions to their ceiling, and a sell starts it if it takes them
from there.
-/

namespace LaunchDesk

/-! ## Ledgers at a limit -/

namespace Ledger

/-- The ledger before the first event. -/
def opening (balance : Decimal) : Ledger := ⟨0, 0, balance⟩

def AtFloor (limits : Limits) (l : Ledger) : Prop :=
  ∃ floor, limits.minWalletBalance = some floor ∧ l.balance.le floor = true

def IsSated (limits : Limits) (l : Ledger) : Prop :=
  ∃ n, limits.maxFullTrades = some n ∧ n.toNat ≤ l.completedTrades

def AtCeiling (limits : Limits) (l : Ledger) : Prop :=
  ∃ n, limits.maxOpenPositions = some n ∧ n.toNat ≤ l.openPositions

end Ledger

namespace Overseer

variable {o p : Overseer} {fill : Fill}

theorem atFloor_iff : o.atFloor = true ↔ o.ledger.AtFloor o.limits := by
  unfold atFloor Ledger.AtFloor
  cases o.limits.minWalletBalance <;> simp [ledger]

theorem isSated_iff : o.isSated = true ↔ o.ledger.IsSated o.limits := by
  unfold isSated Ledger.IsSated
  cases o.limits.maxFullTrades <;> simp [ledger]

theorem atCeiling_iff_ledger : o.atCeiling = true ↔ o.ledger.AtCeiling o.limits := atCeiling_iff

theorem count_sent (h : o.count fill = .ok p) :
    p.balanceStopSent = o.balanceStopSent ∧ p.fullTradesStopSent = o.fullTradesStopSent := by
  unfold count at h
  cases hadd : o.balance.add fill.balanceDelta with
  | error fault =>
    rw [hadd] at h
    cases h
  | ok balance =>
    rw [hadd] at h
    cases h
    exact ⟨rfl, rfl⟩

theorem count_of_ledger {bot : BotId} {l : Ledger}
    (h : o.ledger.after (.trade bot fill) = .ok l) : ∃ p, o.count fill = .ok p ∧ p.ledger = l := by
  cases hcount : o.count fill with
  | ok p => exact ⟨p, rfl, Except.ok.inj ((count_ledger bot hcount).symm.trans h)⟩
  | error fault =>
    simp only [Ledger.after, ledger] at h
    unfold count at hcount
    cases hadd : o.balance.add fill.balanceDelta with
    | error fault =>
      rw [hadd] at h
      cases h
    | ok balance =>
      rw [hadd] at hcount
      cases hcount

theorem sell_of_atCeiling (h : o.count fill = .ok p) (ho : o.atCeiling = true)
    (hp : p.atCeiling = false) : fill.side = .sell := by
  cases hside : fill.side with
  | sell => rfl
  | buy =>
    obtain ⟨hlimits, -, -, hopen⟩ := count_spec h
    obtain ⟨n, hn, hle⟩ := atCeiling_iff.mp ho
    rw [hside, Ledger.openAfter] at hopen
    refine absurd (atCeiling_iff.mpr ⟨n, hlimits ▸ hn, ?_⟩) (Bool.eq_false_iff.mp hp)
    omega

/-! ### As long as the intake is paused exactly at the ceiling -/

theorem pauses_iff (h : o.count fill = .ok p) (hpaused : o.pausedForPositions = o.atCeiling) :
    p.pauses fill.side = true ↔
      fill.side = .buy ∧ o.atCeiling = false ∧ p.atCeiling = true := by
  rw [pauses, (count_spec h).2.2.1, hpaused]
  simp only [Bool.and_eq_true, decide_eq_true_eq, Bool.not_eq_true']
  constructor
  · rintro ⟨⟨hside, hp⟩, ho⟩
    exact ⟨hside, ho, hp⟩
  · rintro ⟨hside, ho, hp⟩
    exact ⟨⟨hside, hp⟩, ho⟩

theorem resumes_iff (h : o.count fill = .ok p) (hpaused : o.pausedForPositions = o.atCeiling)
    (hstopped : o.stopped = false) :
    p.resumes = true ↔ fill.side = .sell ∧ o.atCeiling = true ∧ p.atCeiling = false := by
  rw [resumes, (count_spec h).2.2.1, hpaused, (count_spec h).2.1, hstopped]
  simp only [Bool.and_eq_true, Bool.not_eq_true', and_true, Bool.not_false]
  refine ⟨?_, And.right⟩
  rintro ⟨ho, hp⟩
  exact ⟨sell_of_atCeiling h ho hp, ho, hp⟩

theorem paused_afterTrade (h : o.count fill = .ok p) (hpaused : o.pausedForPositions = o.atCeiling)
    (hstopped : o.stopped = false) :
    (p.afterTrade fill.side).pausedForPositions = p.atCeiling := by
  have hsame := (count_spec h).2.2.1.trans hpaused
  have hnew : p.stopped = false := (count_spec h).2.1.trans hstopped
  rw [afterTrade, pauses, resumes, hsame, hnew]
  cases hp : p.atCeiling with
  | false => simp
  | true =>
    cases hside : fill.side with
    | buy => simp
    | sell => simp [atCeiling_of_sell h hside hp]

end Overseer

end LaunchDesk
