import LaunchDesk.Proofs.Desk.Steady
import LaunchDesk.Proofs.Run.Published
import LaunchDesk.Proofs.Workroom.Attachment

/-!
# Two ceilings

An intake has a ceiling of its own, and its overseer has one for open positions. At either of them
the intake pauses, and it goes on as soon as it is at neither.
-/

namespace LaunchDesk.Workroom

open Control (Steady Spares)

variable {w : Workroom} {max : Option Nat} {limits : Limits} {balance : Decimal} {move : Move}
variable {before moves : List Move}

def Move.Ordinary : Move → Prop
  | .deliver _ _ | .finish _ _ | .publish (.trade _ _) | .publish (.cycle _ _) | .wait _ | .letGo =>
    True
  | .interruptNext interruption => ∃ opportunity, interruption = .deliver opportunity
  | _ => False

/-- No recorder was told of a stop for everyone. -/
def Calm (w : Workroom) : Prop := ∀ r ∈ Desk.requests w.desk.notes, r.isScoped = true

instance (w : Workroom) : Decidable w.Calm :=
  inferInstanceAs (Decidable (∀ r ∈ Desk.requests w.desk.notes, r.isScoped = true))

theorem Acts.ordinary {act : Control.Act} (hact : w.Acts move act) (hmove : move.Ordinary)
    (hgentle : w.desk.intake.feed.Gentle) : act.Ordinary := by
  cases hact with
  | deliver stale opportunity => trivial
  | finish task ending => trivial
  | publish event =>
    cases event with
    | stop request => exact hmove
    | _ => trivial
  | interruptNext interruption =>
    refine ⟨hgentle.nextFault, ?_⟩
    rintro _ ⟨⟩
    exact hmove
  | _ => exact hmove.elim

theorem requests_step (h : w.Manned) (move : Move) :
    Desk.requests w.desk.notes <+: Desk.requests (w.after move).desk.notes := by
  change w.desk.control.requests <+: (w.after move).desk.control.requests
  rcases control_cases h move with hsame | ⟨act, -, hafter⟩
  · have hrequests := congrArg Control.requests hsame
    exact ⟨[], (List.append_nil _).trans hrequests.symm⟩
  · rw [hafter]
    exact w.desk.control.requests_after act

theorem calm_before (h : w.Manned) (hcalm : (w.after move).Calm) : w.Calm :=
  fun r hr => hcalm r ((requests_step h move).subset hr)

theorem steady_step (h : w.Manned) (hsteady : Steady limits w.desk.control)
    (hmove : move.Ordinary) (hcalm : (w.after move).Calm) :
    Steady limits (w.after move).desk.control ∧
      Spares w.desk.control (w.after move).desk.control := by
  change ∀ r ∈ (w.after move).desk.control.requests, _ at hcalm
  rcases control_cases h move with hsame | ⟨act, hact, hafter⟩
  · rw [hsame]
    exact ⟨hsteady, fun _ _ _ => rfl⟩
  · obtain ⟨o, -, hgoverns⟩ := id hsteady
    rw [hafter] at hcalm ⊢
    exact Control.steady_after hsteady (hact.ordinary hmove hgoverns.orderly.gentle) hcalm

/-! ## Runs of moves -/

theorem calm_of_foldl (h : w.Manned) (hcalm : (moves.foldl after w).Calm) : w.Calm := by
  induction moves generalizing w with
  | nil => exact hcalm
  | cons move moves ih => exact calm_before h (ih (after_step h move).2 hcalm)

theorem steady_foldl (h : w.Manned) (hsteady : Steady limits w.desk.control)
    (hmoves : ∀ move ∈ moves, move.Ordinary) (hcalm : (moves.foldl after w).Calm) :
    Steady limits (moves.foldl after w).desk.control := by
  induction moves generalizing w with
  | nil => exact hsteady
  | cons move moves ih =>
    have hmanned := (after_step h move).2
    have hmove := hmoves move List.mem_cons_self
    have hstep := (steady_step h hsteady hmove (calm_of_foldl hmanned hcalm)).1
    exact ih hmanned hstep (fun m hm => hmoves m (List.mem_cons_of_mem _ hm)) hcalm

/-! ## The first start -/

theorem orderly_before (max : Option Nat) (limits : Limits) (balance : Decimal)
    (hbefore : ∀ move ∈ before, ∃ opportunity, move = .interruptNext (.deliver opportunity)) :
    (work max limits balance before).desk.overseer = some { limits := limits, balance := balance } ∧
      (work max limits balance before).desk.intake.Orderly := by
  induction before using List.reverseRecOn with
  | nil => exact ⟨rfl, rfl, fun _ _ => Nat.zero_le _, ⟨rfl, fun _ h => nomatch h⟩, fun _ => rfl⟩
  | append_singleton before move ih =>
    obtain ⟨ho, hi⟩ := ih fun m hm => hbefore m (List.mem_append_left _ hm)
    obtain ⟨opportunity, rfl⟩ := hbefore move (by simp)
    rw [work_append]
    refine ⟨ho, hi.heard, hi.within, ⟨hi.gentle.nextFault, ?_⟩, hi.held⟩
    rintro _ ⟨⟩
    exact ⟨opportunity, rfl⟩

theorem steady_started (resuming : Bool)
    (hpositive : ∀ n, limits.maxOpenPositions = some n → 1 ≤ n.toNat)
    (hbefore : ∀ move ∈ before, ∃ opportunity, move = .interruptNext (.deliver opportunity)) :
    Steady limits ((work max limits balance before).after (.start resuming)).desk.control := by
  obtain ⟨ho, hi⟩ := orderly_before max limits balance hbefore
  have hceiling : ({ limits := limits, balance := balance } : Overseer).atCeiling = false := by
    refine eq_false_of_ne_true fun h => ?_
    obtain ⟨n, hn, hle⟩ := Overseer.atCeiling_iff.mp h
    have := hpositive n hn
    simp only at hle
    omega
  rw [(after_step (manned_work before) (.start resuming)).1]
  exact Control.steady_start ho rfl rfl hceiling hi resuming

theorem maxConcurrent_work (moves : List Move) :
    (work max limits balance moves).desk.intake.maxConcurrent = max := by
  obtain ⟨ops, hops⟩ := ops_work max limits balance moves
  rw [hops, Intake.ceiling_handleAll]

theorem steady_work (resuming : Bool)
    (hpositive : ∀ n, limits.maxOpenPositions = some n → 1 ≤ n.toNat)
    (hbefore : ∀ move ∈ before, ∃ opportunity, move = .interruptNext (.deliver opportunity))
    (hmoves : ∀ move ∈ moves, move.Ordinary)
    (hcalm : (work max limits balance (before ++ .start resuming :: moves)).Calm) :
    Steady limits (work max limits balance (before ++ .start resuming :: moves)).desk.control := by
  have hmanned : ((work max limits balance before).after (.start resuming)).Manned :=
    (after_step (manned_work before) (.start resuming)).2
  have hstarted : Steady limits
      ((work max limits balance before).after (.start resuming)).desk.control :=
    steady_started resuming hpositive hbefore
  rw [work_append, List.foldl_cons] at hcalm ⊢
  exact steady_foldl hmanned hstarted hmoves hcalm

/-- Between the first start and the first stop for everyone, nothing is admitted while positions are
at their ceiling, and an intake that does not listen is at one of the two ceilings. -/
theorem intake_keeps_to_both_ceilings (resuming : Bool)
    (hpositive : ∀ n, limits.maxOpenPositions = some n → 1 ≤ n.toNat)
    (hbefore : ∀ move ∈ before, ∃ opportunity, move = .interruptNext (.deliver opportunity))
    (hmoves : ∀ move ∈ moves, move.Ordinary)
    (hcalm : (work max limits balance (before ++ .start resuming :: moves)).Calm) :
    (∀ earlier move later, moves = earlier ++ move :: later →
      let v := work max limits balance (before ++ .start resuming :: earlier)
      ∀ o n, (v.after move).desk.overseer = some o → limits.maxOpenPositions = some n →
        n.toNat ≤ o.openPositions →
        admissions (v.after move).desk.notes = admissions v.desk.notes) ∧
    let w := work max limits balance (before ++ .start resuming :: moves)
    ∃ o, w.desk.overseer = some o ∧ o.limits = limits ∧
      (w.desk.intake.listening = false →
        (∃ n, limits.maxOpenPositions = some n ∧ n.toNat ≤ o.openPositions) ∨
          max = some w.desk.intake.inProgress) := by
  constructor
  · rintro earlier move later rfl v o n ho hn hle
    have hv : v.Manned := manned_work _
    have hmove : (after v move).Calm := by
      have hsplit : before ++ Move.start resuming :: (earlier ++ move :: later) =
          (before ++ .start resuming :: earlier) ++ move :: later := by simp
      rw [hsplit, work_append] at hcalm
      exact calm_of_foldl (after_step hv move).2 hcalm
    have hsteady := steady_work resuming hpositive hbefore
      (fun m hm => hmoves m (List.mem_append_left _ hm)) (calm_before hv hmove)
    obtain ⟨⟨p, hp, hgoverns⟩, hspares⟩ := steady_step hv hsteady (hmoves move (by simp)) hmove
    obtain rfl : p = o := Option.some.inj (hp.symm.trans ho)
    refine hspares p hp (Overseer.atCeiling_iff.mpr ⟨n, ?_, hle⟩)
    rw [hgoverns.limits, hn]
  · obtain ⟨o, ho, hgoverns⟩ := steady_work resuming hpositive hbefore hmoves hcalm
    refine ⟨o, ho, hgoverns.limits, fun hl => ?_⟩
    have hceiling := hgoverns.at_a_ceiling hl
    change _ ∨ (work _ _ _ _).desk.intake.maxConcurrent = _ at hceiling
    rw [maxConcurrent_work] at hceiling
    exact hceiling

def tightLimits : Limits := { maxOpenPositions := some 1 }

/-- Both places are taken, a position is opened, and one place is freed. -/
def crowdedMoves : List Move :=
  [.deliver false default, .deliver false default,
    .publish (.trade default (Run.sampleFill .buy .one)), .finish 0 .finished]

theorem freed_place_stays_free_at_position_ceiling :
    let w := work (some 2) tightLimits .hundred ([] ++ .start false :: crowdedMoves)
    w.Calm ∧ w.desk.intake.listening = false ∧ w.desk.intake.inProgress = 1 ∧
      ∃ o, w.desk.overseer = some o ∧ 1 ≤ o.openPositions := by
  intro w
  have hcalm : w.Calm := by decide +kernel
  refine ⟨hcalm, rfl, rfl, ?_⟩
  obtain ⟨-, o, ho, -, hceiling⟩ := intake_keeps_to_both_ceilings false
    (by rintro n ⟨⟩; decide) (by simp) (by simp [crowdedMoves, Move.Ordinary]) hcalm
  rcases hceiling rfl with ⟨n, hn, hle⟩ | hfull
  · obtain rfl := Option.some.inj hn
    exact ⟨o, ho, hle⟩
  · cases hfull

end LaunchDesk.Workroom
