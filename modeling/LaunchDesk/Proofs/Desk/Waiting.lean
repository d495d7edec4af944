import LaunchDesk.Proofs.Desk.Lasting

/-!
# Who waits at a desk

Whoever waits for the intake to be idle is done, has been woken, or has something to wait for. No
change of a desk takes that away, since a place is never freed without waking everyone. `Upholds`
says so, and that runs ask for nothing unless they go on.
-/

namespace LaunchDesk

theorem Waiter.wake_wake (w : Waiter) : w.wake.wake = w.wake := rfl

/-- What a waiter waits for, and whether it has it. -/
def Waiter.entry (w : Waiter) : Intake.Goal × Bool := (w.goal, w.finished)

theorem Intake.changed_or_le (i : Intake) (op : Operation) :
    .changed ∈ (i.perform op).notes ∨ i.inProgress ≤ (i.perform op).inProgress := by
  cases op with
  | start resuming =>
    obtain ⟨more, hgrows, -⟩ := grows_start i resuming
    exact .inr (hgrows.inProgress ▸ Nat.le_add_right _ _)
  | stop force =>
    obtain ⟨more, hgrows, -⟩ := grows_stop i force
    exact .inr (hgrows.inProgress ▸ Nat.le_add_right _ _)
  | deliver opportunity =>
    obtain ⟨more, hgrows, -⟩ := grows_deliver i opportunity
    exact .inr (hgrows.inProgress ▸ Nat.le_add_right _ _)
  | finish task ending => exact .inl (List.mem_append_right _ List.mem_cons_self)
  | prepare fault interruption => exact .inr (Nat.le_refl _)

namespace Desk

variable {d e f : Desk}

/-! ## What runs ask for -/

/-- What notes say that runs wait for. -/
def asks (notes : List Note) : List (Nat × Request) :=
  notes.filterMap fun
    | .asked run request => some (run, request)
    | _ => none

theorem asks_append (a b : List Note) : asks (a ++ b) = asks a ++ asks b := by simp [asks]

theorem asks_relay (notes : List Intake.Note) : asks (notes.filterMap relay?) = [] := by
  induction notes with
  | nil => rfl
  | cons n notes ih => cases n <;> exact ih

theorem asks_note {n : Note} (hn : asks [n] = []) : asks (d.note n).notes = asks d.notes := by
  rw [note, asks_append, hn, List.append_nil]

theorem asks_of_isPlain {n : Note} (hn : n.isPlain = true) : asks [n] = [] := by
  cases n with
  | log line => rfl
  | recorded event => rfl
  | _ => cases hn

/-! ## Waking -/

theorem waiters_foldl_hear (notes : List Intake.Note) (d : Desk) :
    (notes.foldl hear d).waiters =
      if .changed ∈ notes then d.waiters.map Waiter.wake else d.waiters := by
  induction notes generalizing d with
  | nil => rfl
  | cons n notes ih =>
    rw [List.foldl_cons, ih]
    cases n with
    | changed =>
      have hagain : (d.waiters.map Waiter.wake).map Waiter.wake = d.waiters.map Waiter.wake := by
        rw [List.map_map]
        exact List.map_congr_left fun w _ => w.wake_wake
      simp [hear, hagain]
    | _ => simp [hear, log, note]

theorem waiters_updateIntake (d : Desk) (i : Intake) :
    (d.updateIntake i).waiters =
      if .changed ∈ i.notes then d.waiters.map Waiter.wake else d.waiters :=
  waiters_foldl_hear i.notes { d with intake := { i with notes := [] } }

/-- Whoever waits for the intake to be idle is done, is about to look, or waits for good reason. -/
def Alert (d : Desk) : Prop :=
  ∀ w ∈ d.waiters, w.goal = .idle →
    w.finished = true ∨ w.woken = true ∨ d.intake.inProgress ≠ 0

theorem alert_updateIntake (op : Intake.Operation) (h : d.Alert) :
    (d.updateIntake (d.intake.perform op)).Alert := by
  unfold Alert
  rw [waiters_updateIntake, (updateIntake_eq d _).1]
  intro w hw hgoal
  split at hw
  · obtain ⟨v, -, rfl⟩ := List.mem_map.mp hw
    exact .inr (.inl rfl)
  · next hsilent =>
    have hle : d.intake.inProgress ≤ (d.intake.perform op).cleared.inProgress :=
      (d.intake.changed_or_le op).resolve_left hsilent
    rcases h w hw hgoal with hfinished | hwoken | hbusy
    · exact .inl hfinished
    · exact .inr (.inl hwoken)
    · exact .inr (.inr (by omega))

/-! ## What changes of a desk uphold -/

/-- On the way from `d` to `e` nobody has subscribed or left, no run has asked for anything, and no
one who waits has given up or been left asleep. -/
structure Upholds (d e : Desk) : Prop where
  notes : d.notes <+: e.notes
  bus : e.bus = d.bus
  asks : asks e.notes = asks d.notes
  roll : e.waiters.map Waiter.entry = d.waiters.map Waiter.entry
  matched : d.intake.Matched → e.intake.Matched
  alert : d.Alert → e.Alert

namespace Upholds

theorem refl (d : Desk) : Upholds d d := ⟨List.prefix_rfl, rfl, rfl, rfl, id, id⟩

theorem note {n : Note} (h : Upholds d e) (hn : Desk.asks [n] = []) : Upholds d (e.note n) :=
  ⟨h.notes.trans (List.prefix_append _ _), h.bus, (asks_note hn).trans h.asks, h.roll, h.matched,
    h.alert⟩

theorem updateIntake (h : Upholds d e) (op : Intake.Operation) :
    Upholds d (e.updateIntake (e.intake.perform op)) := by
  obtain ⟨hintake, -, hbus, hnotes⟩ := updateIntake_eq e (e.intake.perform op)
  constructor
  · rw [hnotes]
    exact h.notes.trans (List.prefix_append _ _)
  · exact hbus.trans h.bus
  · rw [hnotes, asks_append, asks_relay, List.append_nil, h.asks]
  · rw [waiters_updateIntake, ← h.roll]
    split
    · rw [List.map_map]
      exact List.map_congr_left fun _ _ => rfl
    · rfl
  · intro hd
    rw [hintake]
    exact Intake.matched_perform op (h.matched hd)
  · exact fun hd => alert_updateIntake op (h.alert hd)

end Upholds

theorem lasting_upholds (d : Desk) : LastingTrades (Upholds d) where
  note := fun hn h => h.note (asks_of_isPlain hn)
  cancel := fun _ h => ⟨h.notes, h.bus, h.asks, h.roll, h.matched, h.alert⟩
  oversee := fun _ _ _ h => ⟨h.notes, h.bus, h.asks, h.roll, h.matched, h.alert⟩
  stop := fun h => h.updateIntake (.stop true)
  start := fun _ _ h => h.updateIntake (.start true)
  count := fun _ _ h => ⟨h.notes, h.bus, h.asks, h.roll, h.matched, h.alert⟩
  owed := fun _ h => h.note rfl

end Desk

end LaunchDesk
