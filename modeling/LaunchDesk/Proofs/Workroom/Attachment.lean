import LaunchDesk.Proofs.Desk.Reactions
import LaunchDesk.Proofs.Workroom.Moves

/-!
# Attached while listening

Whatever is done in a workroom, to its intake it is a series of operations. So the feed has a
listener in place exactly while the intake listens, and is never asked to attach one that it has.
-/

namespace LaunchDesk

open Intake (Operation)

namespace Workroom

variable {max : Option Nat} {limits : Limits} {balance : Decimal}

theorem ops_after {w : Workroom} (h : w.Manned) (move : Move) :
    ∃ ops, (w.after move).desk.intake = w.desk.intake.handleAll ops := by
  rcases control_cases h move with hsame | ⟨act, -, hafter⟩
  · exact ⟨[], congrArg Control.intake hsame⟩
  · obtain ⟨ops, hops⟩ := w.desk.control.ops_after act
    exact ⟨ops, (congrArg Control.intake hafter).trans hops⟩

theorem ops_work (max : Option Nat) (limits : Limits) (balance : Decimal) (moves : List Move) :
    ∃ ops, (work max limits balance moves).desk.intake =
      Intake.handleAll { maxConcurrent := max } ops := by
  induction moves using List.reverseRecOn with
  | nil => exact ⟨[], rfl⟩
  | append_singleton moves move ih =>
    obtain ⟨ops, hops⟩ := ih
    obtain ⟨more, hmore⟩ := ops_after (manned_work moves) move
    refine ⟨ops ++ more, ?_⟩
    rw [work_append, Intake.handleAll_append, ← hops]
    exact hmore

theorem matched_work (moves : List Move) : (work max limits balance moves).desk.intake.Matched := by
  obtain ⟨ops, hops⟩ := ops_work max limits balance moves
  rw [hops]
  exact Intake.matched_handleAll ops rfl

/-- After any operations on an intake, in any order, the feed has a listener in place exactly if the
intake listens. It is asked to attach one only while it has none; a start while listening leaves it
alone, and neither an attempt that it refuses nor one that a stop comes into leaves anything behind.
Every move in a workroom comes down to such operations on its intake. -/
theorem feed_attached_iff_listening (max : Option Nat) :
    (∀ ops : List Operation, let i := Intake.handleAll { maxConcurrent := max } ops
      (i.feed.attached = true ↔ i.listening = true) ∧
      (i.listening = true → ∀ resuming, (i.start resuming).1.feed = i.feed) ∧
      (∀ op, i.asks? op = none → (i.handle op).feed.listens = i.feed.listens) ∧
      ∀ op j, i.asks? op = some j →
        i.handle op = j.connect.1.cleared ∧ j.feed.attached = false ∧
        (i.handle op).feed.listens = i.feed.listens + 1 ∧
        (∀ text, j.feed.nextFault = some text →
          (i.handle op).listening = false ∧ (i.handle op).feed.attached = false) ∧
        ∀ force, j.feed.nextFault = none → j.feed.interruption = some (.stop force) →
          (i.handle op).listening = false ∧ (i.handle op).feed.attached = false) ∧
    ∀ limits balance moves, let w := work max limits balance moves
      (∃ ops, w.desk.intake = Intake.handleAll { maxConcurrent := max } ops) ∧
      ∀ move, ∃ ops, (w.after move).desk.intake = w.desk.intake.handleAll ops := by
  refine ⟨?_, fun limits balance moves =>
    ⟨ops_work max limits balance moves, ops_after (manned_work moves)⟩⟩
  intro ops i
  have hmatched : i.Matched := Intake.matched_handleAll ops rfl
  refine ⟨by rw [hmatched], ?_, fun op hop => Intake.listens_perform_of_quiet hop, ?_⟩
  · intro hl resuming
    rw [Intake.start_of_listening resuming hl]
    rfl
  · intro op j hasks
    have hhandle := Intake.handle_of_asks hasks
    obtain ⟨hl, -, hfeed⟩ := Intake.not_listening_of_asks hasks
    have hj : j.feed.attached = false := by rw [hfeed, hmatched, hl]
    refine ⟨hhandle, hj, ?_, ?_, ?_⟩
    · rw [hhandle, ← hfeed]
      exact Intake.listens_connect j
    · intro text hf
      rw [hhandle]
      exact Intake.connect_refused_detached hj hf
    · intro force hf hn
      rw [hhandle]
      exact Intake.connect_stopped_detached hf hn

end Workroom

end LaunchDesk
