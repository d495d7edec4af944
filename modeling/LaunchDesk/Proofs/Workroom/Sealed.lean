import LaunchDesk.Proofs.Desk.Sealed
import LaunchDesk.Proofs.Run.Published
import LaunchDesk.Proofs.Workroom.Attachment

/-!
# After a stop for everyone

A stop for everyone that reaches the overseer closes the intake of a workroom until somebody else
starts it. Neither a place that is freed nor a position that is closed opens it again.
-/

namespace LaunchDesk.Workroom

open Control (Sealed Rests)

variable {w : Workroom} {max : Option Nat} {limits : Limits} {balance : Decimal} {move : Move}
variable {before later : List Move}

/-- How many stops for everyone a recorder was told of. -/
def stops (w : Workroom) : Nat := w.desk.control.stops

def Move.isStart : Move → Bool
  | .start _ => true
  | _ => false

theorem Acts.isStart {act : Control.Act} (hact : w.Acts move act) (hmove : move.isStart = false) :
    act.isStart = false := by
  cases hact with
  | start resuming => cases hmove
  | publish event => cases event <;> rfl
  | _ => rfl

theorem rests_step (h : w.Manned) (hsealed : Sealed w.desk.control) (hmove : move.isStart = false) :
    Rests w.desk.control (w.after move).desk.control := by
  rcases control_cases h move with hsame | ⟨act, hact, hafter⟩
  · rw [hsame]
    exact .refl hsealed
  · rw [hafter]
    exact Control.rests_after hsealed (hact.isStart hmove)

theorem rests_foldl (h : w.Manned) (hsealed : Sealed w.desk.control)
    (hlater : ∀ m ∈ later, m.isStart = false) :
    Rests w.desk.control (later.foldl after w).desk.control := by
  induction later generalizing w with
  | nil => exact .refl hsealed
  | cons move later ih =>
    have hstep := rests_step h hsealed (hlater move List.mem_cons_self)
    exact hstep.trans (ih (after_step h move).2 hstep.kept
      fun m hm => hlater m (List.mem_cons_of_mem _ hm))

theorem sealed_step (h : w.Manned) (halive : w.desk.overseer.isSome) (hm : w.desk.intake.Matched)
    (hstops : w.stops < (w.after move).stops) : Sealed (w.after move).desk.control := by
  obtain ⟨o, ho⟩ := Option.isSome_iff_exists.mp halive
  unfold stops at hstops
  rcases control_cases h move with hsame | ⟨act, -, hafter⟩
  · rw [hsame] at hstops
    exact absurd hstops (lt_irrefl _)
  · rw [hafter] at hstops ⊢
    exact Control.sealed_after ho hm hstops

theorem Acts.eq_dismiss {act : Control.Act} (hact : w.Acts move act) (hdismiss : act = .dismiss) :
    move = .dismiss := by
  cases hact with
  | dismiss => rfl
  | publish event => cases event <;> cases hdismiss
  | _ => cases hdismiss

theorem stops_dismiss (h : w.Manned) : (w.after .dismiss).stops = w.stops := by
  change w.dismiss.desk.control.stops = _
  rw [(dismiss_step h).1]
  rfl

theorem overseer_step (h : w.Manned) (hmove : move ≠ .dismiss) :
    (w.after move).desk.overseer.isSome = w.desk.overseer.isSome := by
  change (w.after move).desk.control.overseer.isSome = _
  rcases control_cases h move with hsame | ⟨act, hact, hafter⟩
  · exact congrArg (·.overseer.isSome) hsame
  · rw [hafter]
    apply Control.overseer_after
    exact fun hdismiss => hmove (hact.eq_dismiss hdismiss)

theorem overseer_foldl (h : w.Manned) (hlater : ∀ m ∈ later, m ≠ .dismiss) :
    (later.foldl after w).desk.overseer.isSome = w.desk.overseer.isSome := by
  induction later generalizing w with
  | nil => rfl
  | cons move later ih =>
    have hrest := ih (after_step h move).2 fun m hm => hlater m (List.mem_cons_of_mem _ hm)
    refine hrest.trans (overseer_step h (hlater move List.mem_cons_self))

/-- Once everyone was asked to stop while the overseer was there, it stays stopped, the intake does
not listen, the feed has no listener and nothing is admitted, until the intake is started by someone
else. -/
theorem intake_stays_closed
    (halive : (work max limits balance before).desk.overseer.isSome)
    (hstops : (work max limits balance before).stops <
      (work max limits balance (before ++ [move])).stops)
    (hlater : ∀ m ∈ later, m.isStart = false) :
    let v := work max limits balance (before ++ [move])
    let w := work max limits balance (before ++ move :: later)
    (∀ o, w.desk.overseer = some o → o.stopped = true) ∧
      ((∀ m ∈ later, m ≠ .dismiss) → w.desk.overseer.isSome) ∧
      w.desk.intake.listening = false ∧ w.desk.intake.feed.attached = false ∧
      admissions w.desk.notes = admissions v.desk.notes := by
  intro v w
  have hmanned : (work max limits balance before).Manned := manned_work before
  have hv : v = (work max limits balance before).after move := work_append before [move]
  have hw : w = later.foldl after v := by
    unfold w v
    rw [List.append_cons, work_append]
  have hmanned' : v.Manned := manned_work _
  have hsealed : Sealed v.desk.control := by
    change _ < v.stops at hstops
    rw [hv] at hstops ⊢
    exact sealed_step hmanned halive (matched_work before) hstops
  have hrests : Rests v.desk.control w.desk.control := by
    rw [hw]
    exact rests_foldl hmanned' hsealed hlater
  refine ⟨hrests.kept.stopped, fun hstay => ?_, hrests.kept.shut.silent, hrests.kept.shut.detached,
    hrests.admissions⟩
  -- To let the overseer go asks nobody to stop.
  have hmove : move ≠ .dismiss := by
    rintro rfl
    change _ < v.stops at hstops
    rw [hv, stops_dismiss hmanned] at hstops
    exact lt_irrefl _ hstops
  rw [hw, overseer_foldl hmanned' hstay, hv, overseer_step hmanned hmove]
  exact halive

def lossLimits : Limits := { maxOpenPositions := some 1, minWalletBalance := some .one }

/-- A position is opened, which pauses the intake. -/
def openedMoves : List Move :=
  [.start false, .deliver false default, .publish (.trade default (Run.sampleFill .buy .zero))]

/-- The position is closed at a loss: the intake goes on, and then stops for the balance. -/
def lossMove : Move := .publish (.trade default (Run.sampleFill .sell Decimal.hundred.neg))

def lateMoves : List Move := [.finish 0 .finished, .deliver true default]

theorem loss_closes_intake :
    (work none lossLimits .hundred (openedMoves ++ [lossMove])).desk.intake.feed.listens = 2 ∧
      let w := work none lossLimits .hundred (openedMoves ++ lossMove :: lateMoves)
      w.desk.intake.listening = false ∧ w.desk.intake.feed.attached = false ∧
        admissions w.desk.notes = [0] := by
  have halive : (work none lossLimits .hundred openedMoves).desk.overseer.isSome := rfl
  have hstops : (work none lossLimits .hundred openedMoves).stops <
      (work none lossLimits .hundred (openedMoves ++ [lossMove])).stops := by decide +kernel
  have hlater : ∀ m ∈ lateMoves, m.isStart = false := by simp [lateMoves, Move.isStart]
  have hadmitted : admissions
      (work none lossLimits .hundred (openedMoves ++ [lossMove])).desk.notes = [0] := by
    decide +kernel
  obtain ⟨-, -, hlistening, hattached, hadmissions⟩ := intake_stays_closed halive hstops hlater
  exact ⟨by decide +kernel, hlistening, hattached, hadmissions.trans hadmitted⟩

end LaunchDesk.Workroom
