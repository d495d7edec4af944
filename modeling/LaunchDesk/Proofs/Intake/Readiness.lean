import LaunchDesk.Proofs.Intake.Attachment

/-!
# An intake that goes on by itself

As long as the feed refuses nothing, an intake that is held back by force admits nothing, and one
that is not held back listens unless it is full.
-/

namespace LaunchDesk

/-- The feed refuses nothing, and only a delivery may come in while it attaches a listener. -/
structure Feed.Gentle (f : Feed) : Prop where
  nextFault : f.nextFault = none
  interruption : ∀ n, f.interruption = some n → ∃ opportunity, n = .deliver opportunity

namespace Intake

/-- Stops are by force, and the feed stays gentle. -/
def Operation.Gentle : Operation → Prop
  | .stop force => force = true
  | .prepare fault interruption =>
    fault = none ∧ ∀ n, interruption = some n → ∃ opportunity, n = .deliver opportunity
  | _ => True

structure Orderly (i : Intake) : Prop where
  heard : i.notes = []
  within : i.WithinCeiling
  gentle : i.feed.Gentle
  held : i.forced = true → i.listening = false

/-- Not held back, it listens unless it is full. -/
def Eager (i : Intake) : Prop := i.forced = false → i.listening = false → i.isFull = true

variable {i j : Intake} {op : Operation}

theorem eager_of_listening (h : i.listening = true) : i.Eager :=
  fun _ hl => absurd (h.symm.trans hl) (by decide)

theorem eager_of_forced (h : i.forced = true) : i.Eager :=
  fun hf => absurd (h.symm.trans hf) (by decide)

/-! ## Deliveries -/

theorem pause_spec (i : Intake) :
    i.pause.forced = i.forced ∧ i.pause.isFull = i.isFull ∧ i.pause.listening = false ∧
      (i.feed.Gentle → i.pause.feed.Gentle) := by
  unfold pause
  split
  · exact ⟨rfl, rfl, rfl, fun h => ⟨h.nextFault, h.interruption⟩⟩
  · next hl => exact ⟨rfl, rfl, eq_false_of_ne_true hl, id⟩

theorem takeOn_eq (i : Intake) (opportunity : Opportunity) :
    i.takeOn opportunity =
      if (i.welcome opportunity).isFull then
        ((i.welcome opportunity).log (.info "Reached max concurrent opportunities, pausing intake"
          [("max_concurrent", Log.optional toString i.maxConcurrent)])).pause
      else i.welcome opportunity := rfl

theorem deliver_cases (i : Intake) (opportunity : Opportunity) :
    (i.listening = false ∧ ∃ line, i.deliver opportunity = i.log line) ∨
      (∃ j : Intake, j.isFull = true ∧ j.forced = i.forced ∧ j.feed = i.feed ∧ i.listening = true ∧
        i.deliver opportunity = j.pause) ∨
      i.listening = true ∧ i.deliver opportunity = i.welcome opportunity := by
  unfold deliver
  split
  · next hl => exact .inl ⟨by simpa using hl, _, rfl⟩
  next hl =>
  have hl : i.listening = true := by simpa using hl
  split
  · next hfull => exact .inr (.inl ⟨i.log _, hfull, rfl, rfl, hl, rfl⟩)
  rw [takeOn_eq]
  split
  · next hfull => exact .inr (.inl ⟨(i.welcome opportunity).log _, hfull, rfl, rfl, hl, rfl⟩)
  · exact .inr (.inr ⟨hl, rfl⟩)

theorem deliver_spec (i : Intake) (opportunity : Opportunity) :
    (i.deliver opportunity).forced = i.forced ∧
      (i.feed.Gentle → (i.deliver opportunity).feed.Gentle) ∧
      ((i.deliver opportunity).listening = true → i.listening = true) ∧
      (i.listening = true → (i.deliver opportunity).Eager) := by
  rcases deliver_cases i opportunity with ⟨hl, line, heq⟩ | ⟨j, hfull, hforced, hfeed, hl, heq⟩ |
    ⟨hl, heq⟩
  · rw [heq]
    exact ⟨rfl, id, id, fun h => absurd (hl.symm.trans h) (by decide)⟩
  · obtain ⟨hsame, hsamefull, -, hgentle⟩ := pause_spec j
    rw [heq, ← hfeed]
    exact ⟨hsame.trans hforced, hgentle, fun _ => hl, fun _ _ _ => hsamefull.trans hfull⟩
  · rw [heq]
    exact ⟨rfl, id, id, fun _ => eager_of_listening hl⟩

/-! ## Attaching to the feed -/

theorem attached_spec (i : Intake) :
    i.attached.forced = i.forced ∧ i.attached.listening = i.listening ∧
      i.attached.isFull = i.isFull ∧ (i.feed.Gentle → i.attached.feed.Gentle) := by
  unfold attached
  split <;> exact ⟨rfl, rfl, rfl, fun h => ⟨h.nextFault, h.interruption⟩⟩

theorem connect_gentle (hl : i.listening = true) (hfeed : i.feed.Gentle) :
    i.connect.1.forced = i.forced ∧ i.connect.1.feed.Gentle ∧ i.connect.1.Eager := by
  have haccepted : i.accepted.feed.Gentle := ⟨rfl, fun _ h => nomatch h⟩
  have hinterrupted : i.interrupted.forced = i.forced ∧ i.interrupted.feed.Gentle ∧
      i.interrupted.Eager := by
    unfold interrupted
    cases hn : i.feed.interruption with
    | none => exact ⟨rfl, haccepted, eager_of_listening hl⟩
    | some n =>
      obtain ⟨opportunity, rfl⟩ := hfeed.interruption n hn
      obtain ⟨hforced, hgentle, -, heager⟩ := deliver_spec i.accepted opportunity
      exact ⟨hforced, hgentle haccepted, heager hl⟩
  obtain ⟨hforced, hgentle, heager⟩ := hinterrupted
  obtain ⟨hsame, hlistening, hfull, hstill⟩ := attached_spec i.interrupted
  rw [connect_of_accepted hfeed.nextFault]
  refine ⟨hsame.trans hforced, hstill hgentle, ?_⟩
  unfold Eager at heager ⊢
  rwa [hsame, hlistening, hfull]

/-- An operation that makes the intake ask the feed leaves it eager. -/
theorem handle_of_asks_gentle (h : i.Orderly) (hasks : i.asks? op = some j) :
    (i.handle op).forced = j.forced ∧ (i.handle op).feed.Gentle ∧ (i.handle op).Eager := by
  obtain ⟨-, hl, hfeed⟩ := not_listening_of_asks hasks
  rw [handle_of_asks hasks]
  exact connect_gentle hl (hfeed ▸ h.gentle)

/-! ## Any operation -/

/-- Whether the intake is held back by force after an operation. -/
def forcedBy (forced : Bool) : Operation → Bool
  | .start _ => false
  | .stop force => forced || force
  | _ => forced

theorem forced_of_asks (h : i.asks? op = some j) :
    j.forced = forcedBy i.forced op ∧ j.forced = false := by
  rcases asks_cases h with ⟨resuming, rfl, -, rfl⟩ | ⟨task, ending, rfl, hr, rfl⟩
  · exact ⟨rfl, rfl⟩
  · simp only [resumes, Bool.and_eq_true, Bool.not_eq_true'] at hr
    exact ⟨rfl, hr.1.2⟩

theorem ceiling_perform (i : Intake) (op : Operation) :
    (i.perform op).maxConcurrent = i.maxConcurrent ∧
      (i.WithinCeiling → (i.perform op).WithinCeiling) := by
  cases op with
  | start resuming =>
    obtain ⟨_, hgrows, -⟩ := grows_start i resuming
    exact ⟨hgrows.ceiling, hgrows.within⟩
  | stop force =>
    obtain ⟨_, hgrows, -⟩ := grows_stop i force
    exact ⟨hgrows.ceiling, hgrows.within⟩
  | deliver opportunity =>
    obtain ⟨_, hgrows, -⟩ := grows_deliver i opportunity
    exact ⟨hgrows.ceiling, hgrows.within⟩
  | finish task ending =>
    obtain ⟨_, hgrows, -⟩ := grows_release (i.log (ending.logLine task))
    exact ⟨hgrows.ceiling,
      fun h => hgrows.within fun max hmax => (Nat.sub_le _ _).trans (h max hmax)⟩
  | prepare fault interruption => exact ⟨rfl, id⟩

theorem ceiling_handleAll (i : Intake) (ops : List Operation) :
    (i.handleAll ops).maxConcurrent = i.maxConcurrent := by
  induction ops generalizing i with
  | nil => rfl
  | cons op ops ih => exact (ih (i.handle op)).trans (ceiling_perform i op).1

theorem handle_of_quiet (h : i.Orderly) (hop : op.Gentle) (hasks : i.asks? op = none) :
    (i.handle op).forced = forcedBy i.forced op ∧ (i.handle op).feed.Gentle ∧
      ((i.handle op).forced = true → (i.handle op).listening = false) ∧
      (i.Eager → (i.handle op).Eager) := by
  cases op with
  | start resuming =>
    obtain ⟨hl, heq⟩ := perform_start_of_quiet hasks
    rw [handle, heq]
    refine ⟨rfl, h.gentle, ?_, fun _ => eager_of_listening hl⟩
    intro hforced
    cases hforced
  | stop force =>
    obtain rfl : force = true := hop
    simp only [handle, perform, stop]
    split
    · exact ⟨rfl, ⟨h.gentle.nextFault, h.gentle.interruption⟩, fun _ => rfl,
        fun _ => eager_of_forced (Bool.or_true _)⟩
    · exact ⟨rfl, h.gentle, fun _ => rfl, fun _ => eager_of_forced (Bool.or_true _)⟩
  | deliver opportunity =>
    obtain ⟨hforced, hgentle, hlistening, heager⟩ := deliver_spec i opportunity
    refine ⟨hforced, hgentle h.gentle, ?_, ?_⟩
    · intro hf
      have hl := h.held (hforced.symm.trans hf)
      exact eq_false_of_ne_true fun h' => absurd (hl.symm.trans (hlistening h')) (by decide)
    · intro he
      cases hl : i.listening with
      | true => exact heager hl
      | false =>
        rcases deliver_cases i opportunity with ⟨-, line, heq⟩ | ⟨_, -, -, -, hl', -⟩ | ⟨hl', -⟩
        · simp only [handle, perform, heq]
          exact he
        · exact absurd (hl.symm.trans hl') (by decide)
        · exact absurd (hl.symm.trans hl') (by decide)
  | finish task ending =>
    obtain ⟨hr, heq⟩ := perform_finish_of_quiet hasks
    rw [handle, heq]
    refine ⟨rfl, h.gentle, h.held, fun _ hf hl => ?_⟩
    simp only [resumes, Bool.and_eq_true, Bool.not_eq_true', not_and, Bool.not_eq_false] at hr
    exact hr ⟨hl, hf⟩
  | prepare fault interruption =>
    obtain ⟨hfault, hinterruption⟩ := hop
    exact ⟨rfl, ⟨hfault, hinterruption⟩, h.held, id⟩

theorem forced_handle (h : i.Orderly) (hop : op.Gentle) :
    (i.handle op).forced = forcedBy i.forced op := by
  cases hasks : i.asks? op with
  | none => exact (handle_of_quiet h hop hasks).1
  | some j => exact (handle_of_asks_gentle h hasks).1.trans (forced_of_asks hasks).1

theorem orderly_handle (h : i.Orderly) (hop : op.Gentle) : (i.handle op).Orderly := by
  have hwithin : (i.handle op).WithinCeiling := (ceiling_perform i op).2 h.within
  cases hasks : i.asks? op with
  | none =>
    obtain ⟨-, hgentle, hheld, -⟩ := handle_of_quiet h hop hasks
    exact ⟨rfl, hwithin, hgentle, hheld⟩
  | some j =>
    obtain ⟨hforced, hgentle, -⟩ := handle_of_asks_gentle h hasks
    rw [(forced_of_asks hasks).2] at hforced
    exact ⟨rfl, hwithin, hgentle, fun h => absurd (hforced.symm.trans h) (by decide)⟩

theorem eager_handle (h : i.Orderly) (he : i.Eager) (hop : op.Gentle) : (i.handle op).Eager := by
  cases hasks : i.asks? op with
  | none => exact (handle_of_quiet h hop hasks).2.2.2 he
  | some j => exact (handle_of_asks_gentle h hasks).2.2

theorem eager_start (h : i.Orderly) (resuming : Bool) : (i.handle (.start resuming)).Eager := by
  cases hl : i.listening with
  | false =>
    have hasks : i.asks? (.start resuming) = some (i.readied false (i.startLine resuming)) := by
      simp [asks?, hl]
    exact (handle_of_asks_gentle h hasks).2.2
  | true =>
    simp only [handle, perform, start_of_listening resuming hl]
    exact eager_of_listening hl

theorem admits_nothing_of_forced (h : i.Orderly) (hop : op.Gentle)
    (hforced : (i.handle op).forced = true) : admissions (i.perform op).notes = [] := by
  have hquiet : i.asks? op = none := by
    cases hasks : i.asks? op with
    | none => rfl
    | some j =>
      rw [(handle_of_asks_gentle h hasks).1, (forced_of_asks hasks).2] at hforced
      cases hforced
  rw [forced_handle h hop] at hforced
  cases op with
  | start resuming => cases hforced
  | stop force =>
    obtain ⟨more, hgrows, hmore⟩ := grows_stop i force
    rw [perform, hgrows.notes, h.heard, List.nil_append, hmore]
  | _ => exact admissions_perform_of_quiet h.heard (h.held hforced) hquiet

end Intake

end LaunchDesk
