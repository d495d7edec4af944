import LaunchDesk.Proofs.Desk.Reactions
import LaunchDesk.Proofs.Intake.Readiness

/-!
# Steady control

While nobody but the overseer stops the intake, the overseer holds it back by force exactly while as
many positions are open as may be, whatever else makes it pause or go on.
-/

namespace LaunchDesk.Control

variable {c : Control} {o p : Overseer} {i : Intake} {limits : Limits} {act : Act}
variable {op : Intake.Operation}

/-- An overseer with these limits and the intake that it looks after. -/
structure Governs (limits : Limits) (o : Overseer) (i : Intake) : Prop where
  limits : o.limits = limits
  going : o.stopped = false
  paused : o.pausedForPositions = o.atCeiling
  forced : i.forced = o.atCeiling
  orderly : i.Orderly
  eager : i.Eager

theorem Governs.at_a_ceiling (h : Governs limits o i) (hl : i.listening = false) :
    (∃ n, limits.maxOpenPositions = some n ∧ n.toNat ≤ o.openPositions) ∨
      i.maxConcurrent = some i.inProgress := by
  cases hforced : i.forced with
  | true =>
    obtain ⟨n, hn, hle⟩ := Overseer.atCeiling_iff.mp (h.forced.symm.trans hforced)
    exact .inl ⟨n, h.limits ▸ hn, hle⟩
  | false =>
    have hfull := h.eager hforced hl
    have hwithin := h.orderly.within
    unfold Intake.isFull at hfull
    cases hmax : i.maxConcurrent with
    | none =>
      rw [hmax] at hfull
      cases hfull
    | some max =>
      rw [hmax, Option.any_some, decide_eq_true_iff] at hfull
      exact .inr (congrArg some (Nat.le_antisymm hfull (hwithin max hmax)))

def Steady (limits : Limits) (c : Control) : Prop :=
  ∃ o, c.overseer = some o ∧ Governs limits o c.intake

/-- Nothing is admitted on the way from `c` to `d` if positions are at the ceiling then. -/
def Spares (c d : Control) : Prop :=
  ∀ o, d.overseer = some o → o.atCeiling = true → d.admissions = c.admissions

/-- Deliveries, work that ends, trades and finished runs, while the feed stays gentle. -/
def Act.Ordinary : Act → Prop
  | .operate (.deliver _) | .operate (.finish _ _) | .trade _ _ | .cycle _ _ => True
  | .operate (.prepare fault interruption) => (Intake.Operation.prepare fault interruption).Gentle
  | _ => False

/-! ## Operations -/

theorem admissions_handle (h : i.Orderly) (hop : op.Gentle) (hi : c.intake = i)
    (hforced : (i.handle op).forced = true) : (c.handle op).admissions = c.admissions := by
  subst hi
  rw [handle, Intake.admits_nothing_of_forced h hop hforced]
  exact List.append_nil _

/-- An operation keeps the overseer in charge if it holds the intake back as the overseer wants. -/
theorem Governs.handle (h : Governs limits o i) (hop : op.Gentle)
    (hforced : Intake.forcedBy i.forced op = p.atCeiling) (hlimits : p.limits = o.limits)
    (hgoing : p.stopped = false) (hpaused : p.pausedForPositions = p.atCeiling) :
    Governs limits p (i.handle op) where
  limits := hlimits.trans h.limits
  going := hgoing
  paused := hpaused
  forced := (Intake.forced_handle h.orderly hop).trans hforced
  orderly := Intake.orderly_handle h.orderly hop
  eager := Intake.eager_handle h.orderly h.eager hop

theorem steady_operate (h : Steady limits c) (hop : op.Gentle)
    (hkeeps : Intake.forcedBy c.intake.forced op = c.intake.forced) :
    Steady limits (c.handle op) ∧ Spares c (c.handle op) := by
  obtain ⟨o, ho, hgoverns⟩ := h
  have hforced := hkeeps.trans hgoverns.forced
  refine ⟨⟨o, ho, hgoverns.handle hop hforced rfl hgoverns.going hgoverns.paused⟩, ?_⟩
  intro p hp hceiling
  obtain rfl : o = p := Option.some.inj (ho.symm.trans hp)
  refine admissions_handle hgoverns.orderly hop rfl ?_
  rw [Intake.forced_handle hgoverns.orderly hop, hforced, hceiling]

/-! ## Trades -/

theorem Governs.atCeiling_eq {fill : Fill} (hgoverns : Governs limits o i)
    (h : o.count fill = .ok p) (hpauses : p.pauses fill.side = false)
    (hresumes : p.resumes = false) : o.atCeiling = p.atCeiling := by
  obtain ⟨-, hstopped, hpaused, -⟩ := Overseer.count_spec h
  rw [Overseer.pauses, hpaused, hgoverns.paused] at hpauses
  rw [Overseer.resumes, hpaused, hstopped, hgoverns.going, hgoverns.paused] at hresumes
  -- A buy that pauses nothing has not reached the ceiling; a sell can only have left it.
  cases hside : fill.side with
  | buy =>
    rw [hside] at hpauses
    revert hpauses hresumes
    cases o.atCeiling <;> cases p.atCeiling <;> simp
  | sell =>
    have hdown := Overseer.atCeiling_of_sell h hside
    revert hresumes hdown
    cases o.atCeiling <;> cases p.atCeiling <;> simp

theorem steady_adjusted {fill : Fill} (hgoverns : Governs limits o c.intake)
    (h : o.count fill = .ok p) :
    Steady limits (c.adjusted p fill.side) ∧ Spares c (c.adjusted p fill.side) := by
  obtain ⟨hlimits, hstopped, hpaused, -⟩ := Overseer.count_spec h
  have hgoing : p.stopped = false := hstopped.trans hgoverns.going
  rcases adjusted_cases c p fill.side with ⟨hpauses, hadjusted⟩ | ⟨hpauses, hresumes, hadjusted⟩ |
    ⟨hpauses, hresumes, hadjusted⟩
  · have hceiling := Overseer.atCeiling_of_pauses hpauses
    have hop : (Intake.Operation.stop true).Gentle := rfl
    have hforced : Intake.forcedBy c.intake.forced (.stop true) = p.atCeiling := by
      rw [hceiling, Intake.forcedBy, Bool.or_true]
    rw [hadjusted]
    refine ⟨⟨_, rfl, hgoverns.handle (p := p.afterTrade fill.side) hop hforced hlimits hgoing ?_⟩,
      ?_⟩
    · simp only [Overseer.afterTrade, hpauses, Bool.true_or]
      exact hceiling.symm
    · intro _ _ _
      refine admissions_handle hgoverns.orderly hop rfl ?_
      exact (Intake.forced_handle hgoverns.orderly hop).trans (hforced.trans hceiling)
  · have hceiling := Overseer.atCeiling_of_resumes hresumes
    rw [hadjusted]
    refine ⟨⟨_, rfl, hgoverns.handle (p := p.afterTrade fill.side) trivial hceiling.symm hlimits
      hgoing ?_⟩, ?_⟩
    · simp only [Overseer.afterTrade, hpauses, hresumes, Bool.not_true, Bool.and_false,
        Bool.or_false]
      exact hceiling.symm
    · rintro _ ⟨⟩ hp
      exact absurd (hceiling.symm.trans hp) (by decide)
  · have hsame := hgoverns.atCeiling_eq h hpauses hresumes
    rw [hadjusted]
    refine ⟨⟨_, rfl, hlimits.trans hgoverns.limits, hgoing, ?_, hgoverns.forced.trans hsame,
      hgoverns.orderly, hgoverns.eager⟩, fun _ _ _ => rfl⟩
    simp only [Overseer.afterTrade, hpauses, hresumes, Bool.false_or, Bool.not_false, Bool.and_true]
    exact (hpaused.trans hgoverns.paused).trans hsame

/-! ## Any ordinary act -/

theorem not_calm_of_publish {request : StopRequest} (hrequest : request.isScoped = false) :
    ¬ ∀ r ∈ (c.publish request).requests, r.isScoped = true := by
  intro hcalm
  rw [requests_publish] at hcalm
  exact absurd (hrequest.symm.trans (hcalm request (by simp))) (by decide)

/-- An ordinary act that nothing unscoped follows from keeps the overseer in charge. -/
theorem steady_after (h : Steady limits c) (hact : act.Ordinary)
    (hcalm : ∀ r ∈ (c.after act).requests, r.isScoped = true) :
    Steady limits (c.after act) ∧ Spares c (c.after act) := by
  have hsteady := h
  obtain ⟨o, ho, hgoverns⟩ := h
  cases act with
  | operate op =>
    cases op with
    | deliver opportunity => exact steady_operate hsteady trivial rfl
    | finish task ending => exact steady_operate hsteady trivial rfl
    | prepare fault interruption => exact steady_operate hsteady hact rfl
    | start resuming => exact hact.elim
    | stop force => exact hact.elim
  | trade bot fill =>
    rcases after_trade ho bot fill with ⟨fault, -, hsame⟩ | ⟨p, hcount, hafter⟩
    · rw [hsame]
      exact ⟨hsteady, fun _ _ _ => rfl⟩
    · rw [hafter] at hcalm ⊢
      split at hcalm
      · exact absurd hcalm (not_calm_of_publish rfl)
      · next hfloor =>
        rw [if_neg hfloor]
        exact steady_adjusted hgoverns hcount
  | cycle bot outcome =>
    rw [after_cycle ho] at hcalm ⊢
    split at hcalm
    · exact absurd hcalm (not_calm_of_publish rfl)
    · next hsated =>
      rw [if_neg hsated]
      exact ⟨⟨_, rfl, hgoverns.limits, hgoverns.going, hgoverns.paused, hgoverns.forced,
        hgoverns.orderly, hgoverns.eager⟩, fun _ _ _ => rfl⟩
  | stop request => exact hact.elim
  | dismiss => exact hact.elim

theorem steady_start (ho : c.overseer = some o) (hgoing : o.stopped = false)
    (hpaused : o.pausedForPositions = false) (hceiling : o.atCeiling = false)
    (hi : c.intake.Orderly) (resuming : Bool) :
    Steady o.limits (c.handle (.start resuming)) := by
  have hop : (Intake.Operation.start resuming).Gentle := trivial
  have hforced := Intake.forced_handle hi hop
  exact ⟨o, ho, rfl, hgoing, hpaused.trans hceiling.symm, hforced.trans hceiling.symm,
    Intake.orderly_handle hi hop, Intake.eager_start hi resuming⟩

end LaunchDesk.Control
