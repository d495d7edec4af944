import LaunchDesk.Proofs.Intake.Attachment

/-!
# Held back by force

An attempt to attach an intake takes time: it begins when the intake decides to listen, reaches the
feed later, and is over when the feed has put the intake in place or refused it. Anything may happen
in between. However many attempts are under way when a stop by force comes, nothing but a start ends
it.
-/

namespace LaunchDesk.Intake

variable {i j : Intake} {op : Operation}

/-! ## Attempts that take time -/

/-- An intake and the attempts to attach it that are under way. -/
structure Entrance where
  intake : Intake
  /-- Attempts that have not reached the feed. -/
  begun : Nat := 0
  /-- Attempts that the feed has not answered. -/
  pending : Nat := 0

inductive Happening
  | call (op : Operation)
  /-- An attempt reaches the feed. -/
  | reach
  /-- The feed has put the intake in place, and the attempt is over. -/
  | place
  /-- The feed refuses in the end, and the attempt is over. -/
  | refuse

def Happening.isStart : Happening → Bool
  | .call op => op.isStart
  | _ => false

def refused (i : Intake) : Intake := { i with feed := i.feed.attempt.2, listening := false }

namespace Entrance

variable {e : Entrance} {h : Happening}

/-- An entrance after a happening. A feed that has the intake in place does not refuse it. -/
def after (e : Entrance) : Happening → Entrance
  | .call op =>
    match e.intake.asks? op with
    | none => { e with intake := e.intake.perform op }
    | some j => { e with intake := j, begun := e.begun + 1 }
  | .reach =>
    if e.begun = 0 then e
    else if e.intake.feed.nextFault.isSome && !e.intake.feed.attached then
      { e with intake := e.intake.refused, begun := e.begun - 1 }
    else { intake := e.intake.accepted, begun := e.begun - 1, pending := e.pending + 1 }
  | .place =>
    if e.pending = 0 then e
    else { e with intake := e.intake.attached, pending := e.pending - 1 }
  | .refuse =>
    if e.pending = 0 || e.intake.feed.attached then e
    else { e with intake := { e.intake with listening := false }, pending := e.pending - 1 }

def play (e : Entrance) (happenings : List Happening) : Entrance := happenings.foldl after e

end Entrance

/-! ## An operation is a few happenings -/

def Interruption.operation : Interruption → Operation
  | .stop force => .stop force
  | .start => .start false
  | .deliver opportunity => .deliver opportunity

/-- What happens in an operation that nothing else interrupts but what the feed has in mind. -/
def happenings (i : Intake) (op : Operation) : List Happening :=
  match i.asks? op with
  | none => [.call op]
  | some j =>
    if j.feed.nextFault.isSome then [.call op, .reach]
    else .call op :: .reach ::
      (j.feed.interruption.map fun n => .call (Interruption.operation n)).toList ++ [.place]

theorem perform_interruption (n : Interruption) (h : i.listening = true) :
    i.asks? (Interruption.operation n) = none ∧
      i.perform (Interruption.operation n) = i.interrupt n := by
  cases n with
  | stop force => exact ⟨rfl, rfl⟩
  | start =>
    rw [Interruption.operation, perform, start_of_listening false h]
    exact ⟨by simp [asks?, h], rfl⟩
  | deliver opportunity => exact ⟨rfl, rfl⟩

theorem after_call_of_quiet {e : Entrance} (h : e.intake.asks? op = none) :
    e.after (.call op) = { e with intake := e.intake.perform op } := by
  simp only [Entrance.after, h]

/-- An operation is the same as what happens in it. -/
theorem play_happenings (h : i.Matched) :
    (Entrance.play { intake := i } (i.happenings op)).intake.cleared = i.handle op := by
  cases hasks : i.asks? op with
  | none =>
    simp only [happenings, hasks, Entrance.play, List.foldl_cons, List.foldl_nil]
    rw [after_call_of_quiet (e := { intake := i }) hasks]
    rfl
  | some j =>
    obtain ⟨hsilent, hlistening, hfeed⟩ := not_listening_of_asks hasks
    have hdetached : j.feed.attached = false := by rw [hfeed, h, hsilent]
    have hcall : Entrance.after { intake := i } (.call op) = { intake := j, begun := 1 } := by
      simp only [Entrance.after, hasks]
    rw [handle_of_asks hasks]
    cases hfault : j.feed.nextFault with
    | some text =>
      have hreach : Entrance.after { intake := j, begun := 1 } .reach =
          { intake := j.refused } := by
        simp [Entrance.after, hfault, hdetached]
      rw [connect_of_refused hfault]
      simp only [happenings, hasks, hfault, Option.isSome_some, if_true, Entrance.play,
        List.foldl_cons, List.foldl_nil, hcall, hreach]
      rfl
    | none =>
      have hreach : Entrance.after { intake := j, begun := 1 } .reach =
          { intake := j.accepted, pending := 1 } := by
        simp [Entrance.after, hfault]
      -- The feed accepts: what comes in meanwhile does so before the listener is put in place.
      have hplace : ∀ k : Intake, Entrance.after { intake := k, pending := 1 } .place =
          { intake := k.attached } := fun _ => rfl
      rw [connect_of_accepted hfault, interrupted]
      cases hmeanwhile : j.feed.interruption with
      | none => simp [happenings, hasks, hfault, hmeanwhile, Entrance.play, hcall, hreach, hplace]
      | some n =>
        obtain ⟨hquiet, hperform⟩ := perform_interruption (i := j.accepted) n hlistening
        have hn := after_call_of_quiet (e := { intake := j.accepted, pending := 1 }) hquiet
        simp [happenings, hasks, hfault, hmeanwhile, Entrance.play, hcall, hreach, hn, hperform,
          hplace]

/-! ## What holds between two happenings -/

/-- A listener is in place only if the intake listens. -/
def Tidy (i : Intake) : Prop := i.feed.attached = true → i.listening = true

/-- Held back by force, with nobody in place. -/
structure Held (i : Intake) : Prop where
  forced : i.forced = true
  silent : i.listening = false
  detached : i.feed.attached = false

theorem Matched.tidy (h : i.Matched) : i.Tidy := fun hattached => h.symm.trans hattached

theorem tidy_of_detached (h : i.feed.attached = false) : i.Tidy := by
  intro hattached
  rw [h] at hattached
  cases hattached

theorem detached_of_tidy (h : i.Tidy) (hl : i.listening = false) : i.feed.attached = false := by
  cases hattached : i.feed.attached with
  | false => rfl
  | true =>
    rw [h hattached] at hl
    cases hl

theorem Loosens.tidy (h : i.Loosens j) (hi : i.Tidy) : j.Tidy := by
  rcases h with ⟨hattached, hlistening⟩ | ⟨hattached, -⟩
  · intro h
    rw [hattached] at h
    exact hlistening.trans (hi h)
  · exact tidy_of_detached hattached

theorem held_stop (h : i.Tidy) : (i.stop true).Held := by
  have hsilent : (i.stop true).listening = false := by
    unfold stop
    split <;> rfl
  refine ⟨?_, hsilent, detached_of_tidy ((loosens_stop i true).tidy h) hsilent⟩
  unfold stop
  split <;> exact Bool.or_true _

namespace Entrance

variable {e : Entrance}

theorem tidy_after (h : Happening) (ht : e.intake.Tidy) : (e.after h).intake.Tidy := by
  cases h with
  | call op =>
    cases hasks : e.intake.asks? op with
    | none =>
      rw [after_call_of_quiet hasks]
      exact (loosens_perform hasks).tidy ht
    | some j =>
      obtain ⟨-, hl, -⟩ := not_listening_of_asks hasks
      simp only [after, hasks]
      exact fun _ => hl
  -- Where the feed refuses, nobody is in place, for otherwise it would not have been asked.
  | reach =>
    simp only [after]
    split
    · exact ht
    split
    · next hrefused =>
      simp only [Bool.and_eq_true, Bool.not_eq_true'] at hrefused
      exact tidy_of_detached hrefused.2
    · exact ht
  | place =>
    simp only [after]
    split
    · exact ht
    · exact (matched_attached e.intake).tidy
  | refuse =>
    simp only [after]
    split
    · exact ht
    · next hrefused =>
      simp only [Bool.or_eq_true, not_or, Bool.not_eq_true] at hrefused
      exact tidy_of_detached hrefused.2

theorem tidy_play (happenings : List Happening) (h : e.intake.Tidy) :
    (e.play happenings).intake.Tidy :=
  List.foldlRecOn (motive := fun e : Entrance => e.intake.Tidy) happenings _ h
    fun _ ht h _ => tidy_after h ht

/-! ## Nothing but a start ends it -/

/-- On the way from `e` to `f` the intake was held back and admitted nothing, and the feed was asked
only by attempts that had begun before. -/
structure Keeps (e f : Entrance) : Prop where
  held : f.intake.Held
  admissions : admissions f.intake.notes = admissions e.intake.notes
  listens : f.intake.feed.listens + f.begun = e.intake.feed.listens + e.begun

theorem Keeps.trans {f g : Entrance} (h : Keeps e f) (h' : Keeps f g) : Keeps e g :=
  ⟨h'.held, h'.admissions.trans h.admissions, h'.listens.trans h.listens⟩

end Entrance

/-- An intake that is held back hears of everything but a start without doing anything. -/
theorem Held.perform (h : i.Held) (hop : op.isStart = false) :
    (i.perform op).Held ∧ admissions (i.perform op).notes = admissions i.notes := by
  have hquiet := asks_of_forced h.forced hop
  cases op with
  | start resuming => cases hop
  | stop force =>
    simp only [Intake.perform, stop, h.silent]
    exact ⟨⟨by simp [note, h.forced], rfl, h.detached⟩, by simp [note]⟩
  | deliver opportunity =>
    simp only [Intake.perform, deliver, h.silent]
    exact ⟨⟨h.forced, h.silent, h.detached⟩, by simp [log, note]⟩
  | finish task ending =>
    rw [(perform_finish_of_quiet hquiet).2]
    exact ⟨⟨h.forced, h.silent, h.detached⟩, by simp [note, relieved, log]⟩
  | prepare fault interruption => exact ⟨⟨h.forced, h.silent, h.detached⟩, rfl⟩

namespace Entrance

variable {e : Entrance}

theorem keeps_after {h : Happening} (he : e.intake.Held) (hstart : h.isStart = false) :
    Keeps e (e.after h) := by
  have hstay : Keeps e e := ⟨he, rfl, rfl⟩
  cases h with
  | call op =>
    have hquiet := asks_of_forced he.forced hstart
    rw [after_call_of_quiet hquiet]
    obtain ⟨hheld, hadmissions⟩ := he.perform hstart
    exact ⟨hheld, hadmissions, congrArg (· + e.begun) (listens_perform_of_quiet hquiet)⟩
  | reach =>
    simp only [after]
    split
    · exact hstay
    · next hbegun =>
      -- The attempt is counted by the feed now, and not among those that have begun.
      have hcount : e.intake.feed.listens + 1 + (e.begun - 1) =
          e.intake.feed.listens + e.begun := by omega
      split
      · exact ⟨⟨he.forced, rfl, he.detached⟩, rfl, hcount⟩
      · exact ⟨⟨he.forced, he.silent, he.detached⟩, rfl, hcount⟩
  | place =>
    simp only [after]
    split
    · exact hstay
    · simp only [attached, he.silent]
      exact ⟨⟨he.forced, he.silent, rfl⟩, by simp [detach, updateFeed, log, note], rfl⟩
  | refuse =>
    simp only [after]
    split
    · exact hstay
    · exact ⟨⟨he.forced, rfl, he.detached⟩, rfl, rfl⟩

theorem keeps_play {happenings : List Happening} (he : e.intake.Held)
    (hstart : ∀ h ∈ happenings, h.isStart = false) : Keeps e (e.play happenings) :=
  List.foldlRecOn (motive := Keeps e) happenings _ ⟨he, rfl, rfl⟩
    fun _ hkeeps h hmem => hkeeps.trans (keeps_after hkeeps.held (hstart h hmem))

/-- However an intake has come where it is, and however many attempts to attach it are under way:
after a stop by force, and until it is started, it does not listen and admits nothing, it is not in
place at the feed, and only attempts that had begun before still reach the feed. -/
theorem forced_stop_lasts (max : Option Nat) (before later : List Happening)
    (hlater : ∀ h ∈ later, h.isStart = false) :
    let e := play { intake := { maxConcurrent := max } } before
    let f := (e.after (.call (.stop true))).play later
    f.intake.listening = false ∧ f.intake.forced = true ∧ f.intake.feed.attached = false ∧
      admissions f.intake.notes = admissions e.intake.notes ∧
      f.intake.feed.listens + f.begun = e.intake.feed.listens + e.begun := by
  intro e f
  have htidy : e.intake.Tidy := tidy_play before (tidy_of_detached rfl)
  have hstop : Keeps e (e.after (.call (.stop true))) := by
    obtain ⟨more, hgrows, hmore⟩ := grows_stop e.intake true
    refine ⟨held_stop htidy, ?_, congrArg (· + e.begun) (listens_stop e.intake true)⟩
    rw [after_call_of_quiet rfl, perform, hgrows.notes, admissions_append, hmore, List.append_nil]
  have hkeeps := hstop.trans (keeps_play hstop.held hlater)
  exact ⟨hkeeps.held.silent, hkeeps.held.forced, hkeeps.held.detached, hkeeps.admissions,
    hkeeps.listens⟩

/-- The stop comes while the feed is at work on an attempt that a freed place has led to. -/
theorem forced_stop_in_resume_lasts :
    let before := [.call (.start false), .reach, .place, .call (.deliver default),
      .call (.finish 0 .finished), .reach]
    let later := [.call (.deliver default), .call (.stop false), .place,
      .call (.finish 0 .panicked), .call (.stop true), .call (.deliver default)]
    let e := play { intake := { maxConcurrent := some 1 } } before
    let f := (e.after (.call (.stop true))).play later
    e.intake.listening = true ∧ e.pending = 1 ∧ f.pending = 0 ∧ f.intake.listening = false ∧
      f.intake.feed.attached = false ∧ admissions f.intake.notes = [(0, default)] ∧
      f.intake.feed.listens = 2 := by
  intro before later e f
  obtain ⟨hsilent, -, hdetached, hadmissions, hlistens⟩ :=
    forced_stop_lasts (some 1) before later (by decide)
  exact ⟨rfl, rfl, rfl, hsilent, hdetached, hadmissions, hlistens⟩

end Entrance

end LaunchDesk.Intake
