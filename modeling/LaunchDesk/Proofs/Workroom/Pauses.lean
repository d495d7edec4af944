import LaunchDesk.Proofs.Workroom.Sealed
import Mathlib.Data.List.Infix

/-!
# Who ends a pause

Several reasons for a pause share one mark on the intake, and the overseer remembers only its own.
While it remembers none, an intake that is held back by force stays closed until somebody starts it.
A trade starts the intake exactly if the overseer remembers a pause and positions are below their
ceiling again, whoever else has stopped the intake since.
-/

namespace LaunchDesk

namespace Control

variable {c d : Control} {o p : Overseer} {op : Intake.Operation} {act : Act}

/-! ## While no pause is remembered -/

/-- `d` is shut, and on the way from `c` nothing was admitted and the feed was not asked. -/
structure Still (c d : Control) : Prop where
  shut : d.intake.Shut
  admissions : d.admissions = c.admissions
  listens : d.intake.feed.listens = c.intake.feed.listens

theorem Still.handle (h : Still c d) (hop : op.isStart = false) : Still c (d.handle op) := by
  obtain ⟨hshut, hadmits⟩ := Intake.shut_handle h.shut hop
  have hlistens := Intake.listens_perform_of_quiet (Intake.asks_of_forced h.shut.forced hop)
  refine ⟨hshut, ?_, hlistens.trans h.listens⟩
  rw [Control.handle, hadmits, ← h.admissions]
  exact List.append_nil _

theorem Still.publish (h : Still c d) (request : StopRequest) : Still c (d.publish request) := by
  unfold Control.publish heed
  split
  · exact ⟨h.shut, h.admissions, h.listens⟩
  · exact Still.handle ⟨h.shut, h.admissions, h.listens⟩ rfl

theorem Still.adjusted (h : Still c d) (hp : p.resumes = false) (side : Side) :
    Still c (d.adjusted p side) := by
  have hreplaced : Still c { d with overseer := some (p.afterTrade side) } :=
    ⟨h.shut, h.admissions, h.listens⟩
  unfold Control.adjusted
  rw [hp]
  cases p.pauses side with
  | true => exact hreplaced.publish (.intake .maxOpenPositions)
  | false => exact hreplaced

theorem still_after (h : c.intake.Shut)
    (hfree : ∀ o, c.overseer = some o → o.pausedForPositions = false) (hact : act.isStart = false) :
    Still c (c.after act) := by
  have hstill : Still c c := ⟨h, rfl, rfl⟩
  cases act with
  | operate op => exact hstill.handle hact
  | stop request => exact hstill.publish request
  | trade bot fill =>
    cases ho : c.overseer with
    | none =>
      simp only [after, ho]
      exact hstill
    | some o =>
      rcases after_trade ho bot fill with ⟨fault, -, hsame⟩ | ⟨p, hcount, hafter⟩
      · rw [hsame]
        exact hstill
      -- The count leaves the pause as it is, and without one there is nothing to put an end to.
      · have hp : p.resumes = false := by
          simp [Overseer.resumes, (Overseer.count_spec hcount).2.2.1, hfree o ho]
        have hadjusted := hstill.adjusted hp fill.side
        rw [hafter]
        split
        · exact hadjusted.publish (.all .minWalletBalance)
        · exact hadjusted
  | cycle bot outcome =>
    cases ho : c.overseer with
    | none =>
      simp only [after, ho]
      exact hstill
    | some o =>
      have hreplaced : Still c { c with overseer := some (o.onCycle bot outcome).1 } :=
        ⟨h, rfl, rfl⟩
      rw [after_cycle ho]
      split
      · exact hreplaced.publish (.all .maxFullTrades)
      · exact hreplaced
  | dismiss => exact ⟨h, rfl, rfl⟩

/-! ## When a trade starts the intake -/

theorem listens_publish (c : Control) (request : StopRequest) :
    (c.publish request).intake.feed.listens = c.intake.feed.listens := by
  unfold publish heed
  split
  · rfl
  · exact Intake.listens_stop c.intake true

theorem listens_start (hl : c.intake.listening = false) :
    (c.handle (.start true)).intake.feed.listens = c.intake.feed.listens + 1 := by
  change (c.intake.start true).1.feed.listens = _
  rw [Intake.start_of_not_listening true hl]
  exact Intake.listens_connect _

/-- Whoever stopped the intake, a trade starts it if the overseer remembers a pause that the trade
puts an end to, and only then. -/
theorem listens_after_trade (ho : c.overseer = some o) (hl : c.intake.listening = false)
    (bot : BotId) (fill : Fill) :
    c.intake.feed.listens < (c.after (.trade bot fill)).intake.feed.listens ↔
      ∃ p, o.count fill = .ok p ∧ p.resumes = true := by
  rcases after_trade ho bot fill with ⟨fault, hcount, hsame⟩ | ⟨p, hcount, hafter⟩
  · rw [hsame, hcount]
    simp
  · have hlistens : (c.after (.trade bot fill)).intake.feed.listens =
        (c.adjusted p fill.side).intake.feed.listens := by
      rw [hafter]
      split
      · exact listens_publish _ _
      · rfl
    rw [hlistens, hcount]
    rcases adjusted_cases c p fill.side with ⟨hpauses, hadjusted⟩ | ⟨-, hresumes, hadjusted⟩ |
      ⟨-, hresumes, hadjusted⟩
    · have hstop := Intake.listens_stop c.intake true
      rw [hadjusted]
      simpa [Overseer.resumes_eq_false_of_pauses hpauses, handle, Intake.handle, Intake.cleared,
        Intake.perform] using hstop.le
    · have hstart := listens_start (c := { c with overseer := some (p.afterTrade fill.side) }) hl
      rw [hadjusted, hstart]
      simpa using hresumes
    · rw [hadjusted]
      simp [hresumes]

end Control

namespace Workroom

open Control (Still)

variable {w : Workroom} {max : Option Nat} {limits : Limits} {balance : Decimal}
variable {before later : List Move}

theorem still_work (hshut : (work max limits balance before).desk.intake.Shut)
    (hlater : ∀ m ∈ later, m.isStart = false)
    (hfree : ∀ earlier move rest, later = earlier ++ move :: rest →
      ∀ o, (work max limits balance (before ++ earlier)).desk.overseer = some o →
        o.pausedForPositions = false) :
    Still (work max limits balance before).desk.control
      (work max limits balance (before ++ later)).desk.control := by
  induction later using List.reverseRecOn with
  | nil =>
    rw [List.append_nil]
    exact ⟨hshut, rfl, rfl⟩
  | append_singleton later move ih =>
    have hstill := ih (fun m hm => hlater m (List.mem_append_left _ hm))
      fun earlier m rest heq => hfree earlier m (rest ++ [move]) (by simp [heq])
    rw [← List.append_assoc, work_append (before ++ later)]
    rcases control_cases (manned_work (before ++ later)) move with hsame | ⟨act, hact, hafter⟩
    · rw [List.foldl_cons, List.foldl_nil, hsame]
      exact hstill
    · have hstep := Control.still_after hstill.shut (hfree later move [] rfl)
        (hact.isStart (hlater move (by simp)))
      rw [List.foldl_cons, List.foldl_nil, hafter]
      exact ⟨hstep.shut, hstep.admissions.trans hstill.admissions,
        hstep.listens.trans hstill.listens⟩

/-- An intake that is held back by force stays closed until it is started from outside, as long as
the overseer remembers no pause of its own. If it does remember one, a trade that brings positions
below the ceiling starts the intake, and no other trade does. -/
theorem forced_pause_ends_by_start_or_remembered_pause (max : Option Nat) (limits : Limits)
    (balance : Decimal) (before : List Move)
    (hforced : (work max limits balance before).desk.intake.forced = true)
    (hsilent : (work max limits balance before).desk.intake.listening = false) :
    let w := work max limits balance before
    (∀ o bot fill, w.desk.overseer = some o →
      (w.desk.intake.feed.listens <
          (w.after (.publish (.trade bot fill))).desk.intake.feed.listens ↔
        ∃ p, o.count fill = .ok p ∧ p.resumes = true)) ∧
    ∀ later, (∀ m ∈ later, m.isStart = false) →
      (∀ earlier move rest, later = earlier ++ move :: rest →
        ∀ o, (work max limits balance (before ++ earlier)).desk.overseer = some o →
          o.pausedForPositions = false) →
      let v := work max limits balance (before ++ later)
      v.desk.intake.forced = true ∧ v.desk.intake.listening = false ∧
        v.desk.intake.feed.attached = false ∧
        v.desk.intake.feed.listens = w.desk.intake.feed.listens ∧
        admissions v.desk.notes = admissions w.desk.notes := by
  intro w
  have hmanned : w.Manned := manned_work before
  constructor
  · intro o bot fill ho
    have hcontrol : (w.after (.publish (.trade bot fill))).desk.control =
        w.desk.control.after (.trade bot fill) := (after_step hmanned _).1
    have hlistens := Control.listens_after_trade (c := w.desk.control) ho hsilent bot fill
    rw [← hcontrol] at hlistens
    exact hlistens
  · intro later hlater hfree v
    have hshut : w.desk.intake.Shut :=
      ⟨hmanned.heard, hforced, hsilent, (matched_work before).trans hsilent⟩
    have hstill : Still w.desk.control v.desk.control := still_work hshut hlater hfree
    exact ⟨hstill.shut.forced, hstill.shut.silent, hstill.shut.detached, hstill.listens,
      hstill.admissions⟩

/-- Everything that may follow on a pause by hand short of a start: the feed delivers, work ends,
and a position is opened and closed below the ceiling. -/
def pausedMoves : List Move :=
  [.deliver true default, .finish 0 .finished, .publish (.trade default (Run.sampleFill .buy .one)),
    .publish (.trade default (Run.sampleFill .sell .one))]

theorem pause_by_hand_lasts :
    let before : List Move := [.start false, .deliver false default, .stop true]
    let v := work (some 1) { maxOpenPositions := some 2 } .hundred (before ++ pausedMoves)
    v.desk.intake.inProgress = 0 ∧ v.desk.intake.listening = false ∧
      v.desk.intake.feed.attached = false ∧ admissions v.desk.notes = [0] := by
  intro before v
  obtain ⟨-, hlasts⟩ := forced_pause_ends_by_start_or_remembered_pause (some 1)
    { maxOpenPositions := some 2 } .hundred before rfl rfl
  have hfree : ∀ earlier ∈ pausedMoves.inits,
      ((work (some 1) { maxOpenPositions := some 2 } .hundred
        (before ++ earlier)).desk.overseer.all fun o => !o.pausedForPositions) = true := by
    decide +kernel
  obtain ⟨-, hlistening, hattached, -, hadmissions⟩ :=
    hlasts pausedMoves (by simp [pausedMoves, Move.isStart]) fun earlier move rest heq o ho => by
      have hprefix := hfree earlier ((List.mem_inits earlier pausedMoves).mpr ⟨_, heq.symm⟩)
      rw [ho] at hprefix
      simpa using hprefix
  exact ⟨rfl, hlistening, hattached, hadmissions⟩

/-- A sale lifts a pause by hand when a purchase has reached the ceiling meanwhile. -/
theorem sale_lifts_pause_by_hand :
    let limits : Limits := { maxOpenPositions := some 1 }
    let stopped : List Move := [.start false, .stop true]
    let trades : List Move := [.publish (.trade default (Run.sampleFill .buy .one)),
      .publish (.trade default (Run.sampleFill .sell .one))]
    (work none limits .hundred stopped).desk.intake.forced = true ∧
      (work none limits .hundred stopped).desk.intake.listening = false ∧
      (work none limits .hundred (stopped ++ trades)).desk.intake.forced = false ∧
      (work none limits .hundred (stopped ++ trades)).desk.intake.listening = true := by
  decide +kernel

end Workroom

end LaunchDesk
