import LaunchDesk.Proofs.Desk.Control
import LaunchDesk.Proofs.Overseer.Ledger

/-!
# What the overseer's reactions come to

About a trade the overseer stops the intake or starts it, or does neither; after that it may stop
everything. A finished run can only make it stop everything.
-/

namespace LaunchDesk

namespace Overseer

variable {o p : Overseer} {fill : Fill}

theorem onTrade_eq (o : Overseer) (bot : BotId) (fill : Fill) :
    o.onTrade bot fill =
      (o.count fill).map fun p => (p.afterTrade fill.side, p.tradeReactions bot fill.side) := by
  unfold onTrade
  cases o.count fill <;> rfl

theorem count_spec (h : o.count fill = .ok p) :
    p.limits = o.limits ∧ p.stopped = o.stopped ∧
      p.pausedForPositions = o.pausedForPositions ∧
      p.openPositions = Ledger.openAfter o.openPositions fill.side := by
  unfold count at h
  cases hadd : o.balance.add fill.balanceDelta with
  | error fault =>
    rw [hadd] at h
    cases h
  | ok balance =>
    rw [hadd] at h
    cases h
    refine ⟨rfl, rfl, rfl, ?_⟩
    cases fill.side <;> rfl

theorem atCeiling_iff :
    o.atCeiling = true ↔ ∃ n, o.limits.maxOpenPositions = some n ∧ n.toNat ≤ o.openPositions := by
  unfold atCeiling
  cases o.limits.maxOpenPositions <;> simp

theorem atCeiling_of_pauses {side : Side} (h : o.pauses side = true) : o.atCeiling = true := by
  simp only [pauses, Bool.and_eq_true] at h
  exact h.1.2

theorem atCeiling_of_resumes (h : o.resumes = true) : o.atCeiling = false := by
  simp only [resumes, Bool.and_eq_true, Bool.not_eq_true'] at h
  exact h.1.2

theorem resumes_eq_false_of_pauses {side : Side} (h : o.pauses side = true) :
    o.resumes = false := by
  simp [resumes, atCeiling_of_pauses h]

theorem atCeiling_of_sell (h : o.count fill = .ok p) (hside : fill.side = .sell)
    (hp : p.atCeiling = true) : o.atCeiling = true := by
  obtain ⟨hlimits, -, -, hopen⟩ := count_spec h
  rw [atCeiling_iff] at hp ⊢
  obtain ⟨n, hn, hle⟩ := hp
  rw [hopen, hside, Ledger.openAfter] at hle
  exact ⟨n, hlimits ▸ hn, by omega⟩

/-- What the overseer asks for of its own accord. -/
def ownRequests : List StopRequest :=
  [.intake .maxOpenPositions, .all .minWalletBalance, .all .maxFullTrades]

end Overseer

namespace Control

variable {c : Control} {o p : Overseer}

theorem publish_of_overseer (ho : c.overseer = some o) (request : StopRequest) :
    c.publish request = { c with
      overseer := some (o.onStop request).1
      requests := c.requests ++ [request] }.handle (.stop true) := by
  simp only [publish, heed, ho]

/-- The control when the overseer has counted a trade and has stopped or started the intake. -/
def adjusted (c : Control) (p : Overseer) (side : Side) : Control :=
  let c := { c with overseer := some (p.afterTrade side) }
  let c := if p.pauses side then c.publish (.intake .maxOpenPositions) else c
  if p.resumes then c.handle (.start true) else c

theorem adjusted_cases (c : Control) (p : Overseer) (side : Side) :
    (p.pauses side = true ∧ c.adjusted p side = { c with
      overseer := some (p.afterTrade side)
      requests := c.requests ++ [StopRequest.intake .maxOpenPositions] }.handle (.stop true)) ∨
    (p.pauses side = false ∧ p.resumes = true ∧ c.adjusted p side =
      { c with overseer := some (p.afterTrade side) }.handle (.start true)) ∨
    p.pauses side = false ∧ p.resumes = false ∧
      c.adjusted p side = { c with overseer := some (p.afterTrade side) } := by
  unfold adjusted
  cases hpauses : p.pauses side with
  | true =>
    rw [Overseer.resumes_eq_false_of_pauses hpauses]
    refine .inl ⟨rfl, ?_⟩
    exact publish_of_overseer (c := { c with overseer := some (p.afterTrade side) }) rfl _
  | false =>
    cases p.resumes with
    | true => exact .inr (.inl ⟨rfl, rfl, rfl⟩)
    | false => exact .inr (.inr ⟨rfl, rfl, rfl⟩)

theorem consult_trade (c : Control) (p : Overseer) (bot : BotId) (side : Side) :
    c.consult (p.afterTrade side, p.tradeReactions bot side) =
      if p.stopsForBalance then (c.adjusted p side).publish (.all .minWalletBalance)
      else c.adjusted p side := by
  unfold consult Overseer.tradeReactions adjusted
  rw [List.foldl_append, List.foldl_append, List.foldl_append]
  cases p.pauses side <;> cases p.resumes <;> cases p.stopsForBalance <;> rfl

theorem after_trade (ho : c.overseer = some o) (bot : BotId) (fill : Fill) :
    (∃ fault, o.count fill = .error fault ∧ c.after (.trade bot fill) = c) ∨
      ∃ p, o.count fill = .ok p ∧ c.after (.trade bot fill) =
        if p.stopsForBalance then (c.adjusted p fill.side).publish (.all .minWalletBalance)
        else c.adjusted p fill.side := by
  simp only [after, ho, Overseer.onTrade_eq]
  cases hcount : o.count fill with
  | error fault => exact .inl ⟨fault, rfl, rfl⟩
  | ok p => exact .inr ⟨p, rfl, consult_trade c p bot fill.side⟩

theorem after_cycle (ho : c.overseer = some o) (bot : BotId) (outcome : Outcome) :
    c.after (.cycle bot outcome) =
      if { o with completedTrades := o.completedTrades + 1 }.stopsForTrades then
        { c with overseer := some (o.onCycle bot outcome).1 }.publish (.all .maxFullTrades)
      else { c with overseer := some (o.onCycle bot outcome).1 } := by
  simp only [after, ho, consult, Overseer.onCycle]
  cases { o with completedTrades := o.completedTrades + 1 }.stopsForTrades <;> rfl

theorem requests_publish (c : Control) (request : StopRequest) :
    (c.publish request).requests = c.requests ++ [request] := by
  unfold publish heed
  split <;> rfl

/-! ## Requests -/

/-- What the overseer asks for about a trade that it has counted. -/
def asksAfterTrade (p : Overseer) (side : Side) : List StopRequest :=
  (if p.pauses side then [.intake .maxOpenPositions] else []) ++
    if p.stopsForBalance then [.all .minWalletBalance] else []

theorem asksAfterTrade_spec (p : Overseer) (side : Side) :
    (asksAfterTrade p side).Nodup ∧
      (∀ r ∈ asksAfterTrade p side, r ∈ Overseer.ownRequests) ∧
      (.intake .maxOpenPositions ∈ asksAfterTrade p side ↔ p.pauses side = true) ∧
      (.all .minWalletBalance ∈ asksAfterTrade p side ↔ p.stopsForBalance = true) ∧
      .all .maxFullTrades ∉ asksAfterTrade p side := by
  unfold asksAfterTrade
  cases p.pauses side <;> cases p.stopsForBalance <;> decide

theorem adjusted_tells (c : Control) (p : Overseer) (side : Side) :
    (c.adjusted p side).overseer = some (p.afterTrade side) ∧
      (c.adjusted p side).requests =
        c.requests ++ if p.pauses side then [.intake .maxOpenPositions] else [] := by
  rcases adjusted_cases c p side with ⟨h, hadjusted⟩ | ⟨h, -, hadjusted⟩ | ⟨h, -, hadjusted⟩
  · rw [hadjusted, h]
    exact ⟨rfl, rfl⟩
  · rw [hadjusted, h]
    exact ⟨rfl, (List.append_nil _).symm⟩
  · rw [hadjusted, h]
    exact ⟨rfl, (List.append_nil _).symm⟩

/-- A stop for everyone makes the overseer forget that it has paused the intake. -/
theorem after_trade_tells {fill : Fill} (ho : c.overseer = some o) (hcount : o.count fill = .ok p)
    (bot : BotId) :
    (c.after (.trade bot fill)).requests = c.requests ++ asksAfterTrade p fill.side ∧
      (c.after (.trade bot fill)).overseer = some (if p.stopsForBalance then
        { p.afterTrade fill.side with stopped := true, pausedForPositions := false }
      else p.afterTrade fill.side) := by
  rcases after_trade ho bot fill with ⟨fault, herror, -⟩ | ⟨q, hq, hafter⟩
  · rw [hcount] at herror
    cases herror
  · obtain rfl := Except.ok.inj (hcount.symm.trans hq)
    obtain ⟨hoverseer, hrequests⟩ := adjusted_tells c p fill.side
    rw [hafter, asksAfterTrade]
    -- The stop for the balance comes last, so it has the last word on what is remembered.
    cases p.stopsForBalance with
    | true =>
      rw [if_pos rfl, if_pos rfl, if_pos rfl, requests_publish, hrequests, List.append_assoc,
        publish_of_overseer hoverseer]
      exact ⟨rfl, rfl⟩
    | false => exact ⟨by simp [hrequests], hoverseer⟩

theorem after_cycle_tells (ho : c.overseer = some o) (bot : BotId) (outcome : Outcome) :
    let p := { o with completedTrades := o.completedTrades + 1 }
    (c.after (.cycle bot outcome)).requests =
        c.requests ++ (if p.stopsForTrades then [.all .maxFullTrades] else []) ∧
      (c.after (.cycle bot outcome)).overseer = some (if p.stopsForTrades then
        { p with fullTradesStopSent := true, stopped := true, pausedForPositions := false }
      else p) := by
  intro p
  have hnext : (o.onCycle bot outcome).1 =
      { p with fullTradesStopSent := p.fullTradesStopSent || p.stopsForTrades } := rfl
  have hasks : c.after (.cycle bot outcome) = if p.stopsForTrades then
      { c with overseer := some (o.onCycle bot outcome).1 }.publish (.all .maxFullTrades)
    else { c with overseer := some (o.onCycle bot outcome).1 } := after_cycle ho bot outcome
  rw [hasks, hnext]
  cases p.stopsForTrades with
  | true =>
    rw [if_pos rfl, if_pos rfl, if_pos rfl, requests_publish, publish_of_overseer rfl,
      Bool.or_true]
    exact ⟨rfl, rfl⟩
  | false =>
    rw [Bool.or_false]
    exact ⟨(List.append_nil _).symm, rfl⟩

/-! ## Any act -/

/-- Every act comes to operations on the intake, requests that are recorded and an overseer that
changes, save that the overseer may be let go. -/
theorem after_induction {P : Control → Prop} (act : Act) (here : P c)
    (handle : ∀ d op, P d → P (d.handle op))
    (record : ∀ d request, P d → P { d with requests := d.requests ++ [request] })
    (replace : ∀ d o p, d.overseer = some o → P d → P { d with overseer := some p })
    (dismiss : act = .dismiss → P { c with overseer := none }) : P (c.after act) := by
  have publish : ∀ d request, P d → P (d.publish request) := by
    intro d request hd
    unfold Control.publish heed
    split
    · exact record d request hd
    · next o ho => exact handle _ _ (replace _ o _ ho (record d request hd))
  -- Reactions are carried out one after the other, so this is an induction on how many are left.
  have obey : ∀ (reactions : List Overseer.Reaction) d, P d → P (reactions.foldl obey d) := by
    intro reactions
    induction reactions with
    | nil => exact fun d hd => hd
    | cons reaction reactions ih =>
      intro d hd
      apply ih
      cases reaction with
      | log line => exact hd
      | request request => exact publish d request hd
      | startIntake => exact handle d (.start true) hd
  cases act with
  | operate op => exact handle c op here
  | stop request => exact publish c request here
  | trade bot fill =>
    simp only [after]
    split
    · exact here
    · next o ho =>
      split
      · exact obey _ _ (replace c o _ ho here)
      · exact here
  | cycle bot outcome =>
    simp only [after]
    split
    · exact here
    · next o ho => exact obey _ _ (replace c o _ ho here)
  | dismiss => exact dismiss rfl

theorem requests_after (c : Control) (act : Act) : c.requests <+: (c.after act).requests := by
  apply after_induction (P := fun d => c.requests <+: d.requests) act
  · exact List.prefix_refl _
  · exact fun _ _ h => h
  · exact fun _ _ h => h.trans (List.prefix_append _ _)
  · exact fun _ _ _ _ h => h
  · exact fun _ => List.prefix_refl _

theorem overseer_after (c : Control) (act : Act) (hact : act ≠ .dismiss) :
    (c.after act).overseer.isSome = c.overseer.isSome := by
  apply after_induction (P := fun d => d.overseer.isSome = c.overseer.isSome) act
  · rfl
  · exact fun _ _ h => h
  · exact fun _ _ h => h
  · intro d o p ho h
    rw [ho] at h
    exact h
  · exact fun h => absurd h hact

/-- To the intake every act is a series of operations. -/
theorem ops_after (c : Control) (act : Act) :
    ∃ ops, (c.after act).intake = c.intake.handleAll ops := by
  apply after_induction (P := fun d => ∃ ops, d.intake = c.intake.handleAll ops) act
  · exact ⟨[], rfl⟩
  · rintro d op ⟨ops, hops⟩
    refine ⟨ops ++ [op], ?_⟩
    rw [Intake.handleAll_append, ← hops]
    rfl
  · exact fun _ _ h => h
  · exact fun _ _ _ _ h => h
  · exact fun _ => ⟨[], rfl⟩

end Control

end LaunchDesk
