import LaunchDesk.Proofs.Desk.Reactions
import LaunchDesk.Proofs.Intake.Held

/-!
# Stopped for good

A stop for everyone seals the control: the overseer counts as stopped and the intake is held back by
force. Only a start from outside breaks the seal, for a stopped overseer starts nothing.
-/

namespace LaunchDesk

namespace Intake

variable {i : Intake} {op : Operation}

/-- Held back by force, and nobody listens. -/
structure Shut (i : Intake) : Prop where
  heard : i.notes = []
  forced : i.forced = true
  silent : i.listening = false
  detached : i.feed.attached = false

theorem Shut.held (h : i.Shut) : i.Held := ⟨h.forced, h.silent, h.detached⟩

theorem Held.shut (h : i.Held) : i.cleared.Shut := ⟨rfl, h.forced, h.silent, h.detached⟩

theorem shut_handle (h : i.Shut) (hop : op.isStart = false) :
    (i.handle op).Shut ∧ admissions (i.perform op).notes = [] := by
  obtain ⟨hheld, hadmissions⟩ := h.held.perform hop
  rw [h.heard] at hadmissions
  exact ⟨hheld.shut, hadmissions⟩

theorem shut_stop (h : i.Matched) : (i.handle (.stop true)).Shut := (held_stop h.tidy).shut

end Intake

namespace Control

variable {c d e : Control} {o p : Overseer} {op : Intake.Operation} {act : Act}

/-- The overseer, if it is there, has stopped everything, and the intake is shut. -/
structure Sealed (c : Control) : Prop where
  stopped : ∀ o, c.overseer = some o → o.stopped = true
  shut : c.intake.Shut

/-- `d` is sealed, and nothing was admitted on the way from `c`. -/
structure Rests (c d : Control) : Prop where
  kept : Sealed d
  admissions : d.admissions = c.admissions

/-! ## A sealed control stays sealed -/

theorem Rests.refl (h : Sealed c) : Rests c c := ⟨h, rfl⟩

theorem Rests.trans (h : Rests c d) (h' : Rests d e) : Rests c e :=
  ⟨h'.kept, h'.admissions.trans h.admissions⟩

theorem Rests.handle (h : Rests c d) (hop : op.isStart = false) : Rests c (d.handle op) := by
  obtain ⟨hshut, hadmits⟩ := Intake.shut_handle h.kept.shut hop
  refine ⟨⟨h.kept.stopped, hshut⟩, ?_⟩
  rw [Control.handle, hadmits, ← h.admissions]
  exact List.append_nil _

theorem Rests.replace (h : Rests c d) (hp : p.stopped = true) :
    Rests c { d with overseer := some p } := by
  refine ⟨⟨?_, h.kept.shut⟩, h.admissions⟩
  rintro _ ⟨⟩
  exact hp

theorem stopped_onStop (request : StopRequest) (h : o.stopped = true) :
    (o.onStop request).1.stopped = true := by
  unfold Overseer.onStop
  split
  · exact h
  · rfl

theorem Rests.publish (h : Rests c d) (request : StopRequest) : Rests c (d.publish request) := by
  have hrecorded : Rests c { d with requests := d.requests ++ [request] } :=
    ⟨⟨h.kept.stopped, h.kept.shut⟩, h.admissions⟩
  unfold Control.publish heed
  split
  · exact hrecorded
  · next o ho =>
    exact (hrecorded.replace (stopped_onStop request (h.kept.stopped o ho))).handle rfl

theorem Rests.adjusted (h : Rests c d) (hp : p.stopped = true) (side : Side) :
    Rests c (d.adjusted p side) := by
  have hresumes : p.resumes = false := by simp [Overseer.resumes, hp]
  have hreplaced : Rests c { d with overseer := some (p.afterTrade side) } := h.replace hp
  unfold Control.adjusted
  rw [hresumes]
  cases p.pauses side with
  | true => exact hreplaced.publish (.intake .maxOpenPositions)
  | false => exact hreplaced

def Act.isStart : Act → Bool
  | .operate op => op.isStart
  | _ => false

theorem rests_after (h : Sealed c) (hact : act.isStart = false) : Rests c (c.after act) := by
  have hrests := Rests.refl h
  cases act with
  | operate op => exact hrests.handle hact
  | stop request => exact hrests.publish request
  | trade bot fill =>
    cases ho : c.overseer with
    | none =>
      simp only [after, ho]
      exact hrests
    | some o =>
      rcases after_trade ho bot fill with ⟨fault, -, hsame⟩ | ⟨p, hcount, hafter⟩
      · rw [hsame]
        exact hrests
      · have hp : p.stopped = true := (Overseer.count_spec hcount).2.1.trans (h.stopped o ho)
        have hadjusted := hrests.adjusted hp fill.side
        rw [hafter]
        split
        · exact hadjusted.publish (.all .minWalletBalance)
        · exact hadjusted
  | cycle bot outcome =>
    cases ho : c.overseer with
    | none =>
      simp only [after, ho]
      exact hrests
    | some o =>
      have hreplaced : Rests c { c with overseer := some (o.onCycle bot outcome).1 } :=
        hrests.replace (h.stopped o ho)
      rw [after_cycle ho]
      split
      · exact hreplaced.publish (.all .maxFullTrades)
      · exact hreplaced
  | dismiss =>
    refine ⟨⟨?_, h.shut⟩, rfl⟩
    rintro _ ⟨⟩

/-! ## What seals it -/

/-- How many stops for everyone a recorder was told of. -/
def stops (c : Control) : Nat := c.requests.countP fun request => !request.isScoped

theorem stops_publish (c : Control) (request : StopRequest) :
    (c.publish request).stops = c.stops + (!request.isScoped).toNat := by
  rw [stops, requests_publish, List.countP_append, List.countP_singleton, stops]
  cases request.isScoped <;> rfl

theorem sealed_publish {request : StopRequest} (ho : c.overseer = some o)
    (hm : c.intake.Matched) (hrequest : request.isScoped = false) : Sealed (c.publish request) := by
  rw [publish_of_overseer ho]
  refine ⟨?_, Intake.shut_stop hm⟩
  rintro _ ⟨⟩
  simp [Overseer.onStop, hrequest]

theorem adjusted_spec (hm : c.intake.Matched) (p : Overseer) (side : Side) :
    (c.adjusted p side).overseer = some (p.afterTrade side) ∧
      (c.adjusted p side).intake.Matched ∧ (c.adjusted p side).stops = c.stops := by
  refine ⟨(adjusted_tells c p side).1, ?_⟩
  rcases adjusted_cases c p side with ⟨-, hadjusted⟩ | ⟨-, -, hadjusted⟩ | ⟨-, -, hadjusted⟩
  · rw [hadjusted]
    refine ⟨Intake.matched_perform (.stop true) hm, ?_⟩
    simp [stops, handle, StopRequest.isScoped, StopRequest.intake]
  · rw [hadjusted]
    exact ⟨Intake.matched_perform (.start true) hm, rfl⟩
  · rw [hadjusted]
    exact ⟨hm, rfl⟩

/-- An act in which everyone is asked to stop seals the control, even one in which the intake is
started first: the stop comes last. -/
theorem sealed_after (ho : c.overseer = some o) (hm : c.intake.Matched)
    (hstops : c.stops < (c.after act).stops) : Sealed (c.after act) := by
  -- The number of stops tells the cases apart: where it has not grown there is nothing to show.
  cases act with
  | operate op => exact absurd hstops (lt_irrefl _)
  | stop request =>
    rw [after, stops_publish] at hstops
    cases hscoped : request.isScoped with
    | true =>
      rw [hscoped] at hstops
      exact absurd hstops (lt_irrefl _)
    | false => exact sealed_publish ho hm hscoped
  | trade bot fill =>
    rcases after_trade ho bot fill with ⟨fault, -, hsame⟩ | ⟨p, -, hafter⟩
    · rw [hsame] at hstops
      exact absurd hstops (lt_irrefl _)
    · obtain ⟨hoverseer, hmatched, hsame⟩ := adjusted_spec hm p fill.side
      rw [hafter] at hstops ⊢
      split at hstops
      · next hfloor =>
        rw [if_pos hfloor]
        exact sealed_publish hoverseer hmatched rfl
      · omega
  | cycle bot outcome =>
    rw [after_cycle ho] at hstops ⊢
    split at hstops
    · next hsated =>
      rw [if_pos hsated]
      exact sealed_publish (c := { c with overseer := some (o.onCycle bot outcome).1 }) rfl hm rfl
    · exact absurd hstops (lt_irrefl _)
  | dismiss => exact absurd hstops (lt_irrefl _)

end Control

end LaunchDesk
