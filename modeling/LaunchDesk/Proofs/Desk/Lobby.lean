import LaunchDesk.Proofs.Desk.Waiting
import LaunchDesk.Proofs.Intake.Readiness
import LaunchDesk.Proofs.Sequences

/-!
# The lobby

Those who wait for an intake wait in the lobby. Each of them registers for the next call, looks at
the intake, and sleeps until it is called; then it begins again. Their steps come in any order
between the operations, and nobody sleeps on who has what it waits for. There is one exception: an
intake without any places stops listening when something is delivered to it, and calls nobody.
-/

namespace LaunchDesk

namespace Patron

/-- How far someone is with a look at the intake. -/
inductive Stage
  | away
  /-- It hears the next call, and has not looked yet. -/
  | registered
  /-- It has looked. -/
  | asleep
deriving DecidableEq

end Patron

structure Patron where
  waiter : Waiter
  stage : Patron.Stage := .away

namespace Patron

variable {i : Intake} {p : Patron}

/-- The next step. A call from before the registration is not heard. -/
def step (i : Intake) (p : Patron) : Patron :=
  if p.waiter.finished then p
  else
    match p.stage with
    | .away => { waiter := { p.waiter with woken := false }, stage := .registered }
    | .registered =>
      { waiter := { p.waiter with finished := p.waiter.goal.holds i }, stage := .asleep }
    | .asleep => if p.waiter.woken then { p with stage := .away } else p

def wake (p : Patron) : Patron := { p with waiter := p.waiter.wake }

/-- It has nothing left to do by itself. -/
def Rests (i : Intake) (p : Patron) : Prop := p.step i = p

/-- It is done, is about to look, has been called, or has something to wait for. -/
def Alert (i : Intake) (p : Patron) : Prop :=
  p.waiter.finished = true ∨ p.stage ≠ .asleep ∨ p.waiter.woken = true ∨
    p.waiter.goal.holds i = false

theorem goal_step (i : Intake) (p : Patron) : (p.step i).waiter.goal = p.waiter.goal := by
  unfold step
  split
  · rfl
  split
  · rfl
  · rfl
  split <;> rfl

theorem alert_step (i : Intake) (p : Patron) (h : p.Alert i) : (p.step i).Alert i := by
  unfold step
  split
  · exact h
  split
  · exact .inr (.inl (by simp))
  · -- The look decides: it is done, or it has something to wait for.
    cases hholds : p.waiter.goal.holds i with
    | true => exact .inl rfl
    | false => exact .inr (.inr (.inr hholds))
  split
  · exact .inr (.inl (by simp))
  · exact h

theorem finished_step (h : (p.step i).waiter.finished = true) :
    p.waiter.finished = true ∨ p.waiter.goal.holds i = true := by
  unfold step at h
  split at h
  · next hfinished => exact .inl hfinished
  split at h
  · exact .inl h
  · exact .inr h
  split at h
  · exact .inl h
  · exact .inl h

/-- Someone who has nothing left to do and is not done sleeps, and nobody has called. -/
theorem not_holds_of_rests (hrests : p.Rests i) (halert : p.Alert i)
    (hpending : p.waiter.finished = false) : p.waiter.goal.holds i = false := by
  -- Every other step takes one to a new stage.
  have hstage : (p.step i).stage = p.stage := congrArg stage hrests
  obtain ⟨⟨goal, woken, finished⟩, stage⟩ := p
  cases hpending
  cases stage with
  | away => cases hstage
  | registered => cases hstage
  | asleep =>
    cases woken with
    | true => cases hstage
    | false => simpa [Alert] using halert

end Patron

/-! ## The steps of a look -/

/-- Someone who was called takes three steps to look once. -/
theorem Waiter.look_eq_steps (i : Intake) (w : Waiter) :
    (((Patron.mk w .asleep).step i).step i).step i = ⟨w.look i, .asleep⟩ := by
  obtain ⟨goal, woken, finished⟩ := w
  cases finished <;> cases woken <;> rfl

theorem Waiter.start_eq_steps (goal : Intake.Goal) (i : Intake) :
    ((Patron.mk { goal := goal } .away).step i).step i = ⟨Waiter.start goal i, .asleep⟩ := rfl

/-! ## Moves -/

structure Lobby where
  intake : Intake
  patrons : List Patron := []

namespace Lobby

inductive Move
  | operate (op : Intake.Operation)
  | arrive (goal : Intake.Goal)
  | step (k : Nat)

def after (l : Lobby) : Move → Lobby
  | .operate op =>
    let i := l.intake.perform op
    { intake := i.cleared
      patrons := if .changed ∈ i.notes then l.patrons.map Patron.wake else l.patrons }
  | .arrive goal => { l with patrons := l.patrons ++ [{ waiter := { goal := goal } }] }
  | .step k => { l with patrons := l.patrons.modify k (Patron.step l.intake) }

def play (l : Lobby) (moves : List Move) : Lobby := moves.foldl after l

/-- Nobody has anything left to do. -/
def Settled (l : Lobby) : Prop := ∀ p ∈ l.patrons, p.Rests l.intake

end Lobby

/-- The lobby of a desk, when everyone has looked. -/
def Desk.lobby (d : Desk) : Lobby where
  intake := d.intake
  patrons := d.waiters.map fun w => ⟨w, .asleep⟩

theorem Desk.lobby_updateIntake (d : Desk) (op : Intake.Operation) :
    (d.updateIntake (d.intake.perform op)).lobby = d.lobby.after (.operate op) := by
  simp only [lobby, Lobby.after, waiters_updateIntake, (updateIntake_eq d _).1]
  by_cases hchanged : .changed ∈ (d.intake.perform op).notes
  · simp only [hchanged, if_true, List.map_map]
    rfl
  · simp only [hchanged, if_false]

theorem Desk.lobby_lookAround (d : Desk) : d.lookAround.lobby =
    { d.lobby with patrons := d.lobby.patrons.map fun p =>
        ((p.step d.intake).step d.intake).step d.intake } := by
  simp only [lobby, lookAround, List.map_map]
  congr 1
  exact List.map_congr_left fun w _ => (w.look_eq_steps d.intake).symm

theorem Desk.lobby_wait (d : Desk) (goal : Intake.Goal) : (d.wait goal).lobby =
    d.lobby.play [.arrive goal, .step d.waiters.length, .step d.waiters.length] := by
  have hlength : d.waiters.length = d.lobby.patrons.length := by simp [lobby]
  simp only [Lobby.play, List.foldl_cons, List.foldl_nil, Lobby.after, hlength, modify_last]
  simp [lobby, wait, Waiter.start_eq_steps]

/-! ## Calls -/

theorem Intake.changed_stop (i : Intake) (force : Bool) : .changed ∈ (i.stop force).notes := by
  unfold stop
  split <;> exact List.mem_append_right _ List.mem_cons_self

theorem Intake.changed_finish (i : Intake) (task : Nat) (ending : Ending) :
    .changed ∈ (i.finish task ending).notes := List.mem_append_right _ List.mem_cons_self

theorem Intake.deliver_listens {i : Intake} {opportunity : Opportunity}
    (hmax : i.maxConcurrent ≠ some 0) (hl : i.listening = true) :
    (i.deliver opportunity).inProgress ≠ 0 := by
  obtain ⟨more, hgrows, hmore⟩ := grows_deliver i opportunity
  rw [hgrows.inProgress, hmore, hl]
  cases hfull : i.isFull with
  | false => simp
  | true =>
    -- It is full with nothing but what it works on.
    have hbusy : i.inProgress ≠ 0 := by
      intro hidle
      simp only [isFull, Option.any_eq_true, decide_eq_true_eq] at hfull
      obtain ⟨max, hceiling, hle⟩ := hfull
      rw [hidle, Nat.le_zero] at hle
      exact hmax (hle ▸ hceiling)
    simpa using hbusy

theorem Intake.Goal.holds_cleared (goal : Goal) (i : Intake) :
    goal.holds i.cleared = goal.holds i := by
  cases goal <;> rfl

/-- Whatever makes an intake done or idle makes it call, if it has a place. -/
theorem Intake.Goal.holds_of_silent {goal : Goal} {i : Intake} {op : Operation}
    (hcounts : goal = .idle ∨ i.maxConcurrent ≠ some 0)
    (hsilent : .changed ∉ (i.perform op).notes) (h : goal.holds (i.perform op) = true) :
    goal.holds i = true := by
  have hle : i.inProgress ≤ (i.perform op).inProgress := (i.changed_or_le op).resolve_left hsilent
  cases goal with
  | idle =>
    simp only [holds, isIdle, beq_iff_eq] at h ⊢
    omega
  | done =>
    have hmax : i.maxConcurrent ≠ some 0 := hcounts.resolve_left (by simp)
    simp only [holds, isDone, Bool.and_eq_true, Bool.not_eq_true', beq_iff_eq] at h ⊢
    obtain ⟨hstill, hidle⟩ := h
    refine ⟨?_, by omega⟩
    cases hl : i.listening with
    | false => rfl
    | true =>
      cases op with
      | start resuming =>
        rw [perform, start_of_listening resuming hl] at hstill
        exact hl.symm.trans hstill
      | stop force => exact absurd (i.changed_stop force) hsilent
      | deliver opportunity => exact absurd hidle (deliver_listens hmax hl)
      | finish task ending => exact absurd (i.changed_finish task ending) hsilent
      | prepare fault interruption => exact hl.symm.trans hstill

namespace Lobby

variable {l : Lobby} {max : Option Nat}

/-- Nobody sleeps on who has what it waits for. An intake without any places is not to be counted
on to call when it stops listening. -/
structure Wakeful (max : Option Nat) (l : Lobby) : Prop where
  ceiling : l.intake.maxConcurrent = max
  alert : ∀ p ∈ l.patrons, p.waiter.goal = .idle ∨ max ≠ some 0 → p.Alert l.intake

theorem wakeful_operate (op : Intake.Operation) (h : l.Wakeful max) :
    (l.after (.operate op)).Wakeful max := by
  refine ⟨((Intake.ceiling_perform l.intake op).1).trans h.ceiling, ?_⟩
  intro p hp hcounts
  simp only [after] at hp
  -- If the operation calls, everyone has been called; if not, nobody's wish has come true by it.
  split at hp
  · obtain ⟨q, -, rfl⟩ := List.mem_map.mp hp
    exact .inr (.inr (.inl rfl))
  · next hsilent =>
    rcases h.alert p hp hcounts with hfinished | hup | hwoken | hpending
    · exact .inl hfinished
    · exact .inr (.inl hup)
    · exact .inr (.inr (.inl hwoken))
    · refine .inr (.inr (.inr ?_))
      cases hholds : p.waiter.goal.holds (l.intake.perform op) with
      | false =>
        rw [← hholds]
        exact p.waiter.goal.holds_cleared _
      | true =>
        rw [Intake.Goal.holds_of_silent (h.ceiling ▸ hcounts) hsilent hholds] at hpending
        cases hpending

theorem wakeful_after (move : Move) (h : l.Wakeful max) : (l.after move).Wakeful max := by
  cases move with
  | operate op => exact wakeful_operate op h
  | arrive goal =>
    refine ⟨h.ceiling, fun p hp hcounts => ?_⟩
    rcases List.mem_append.mp hp with hp | hp
    · exact h.alert p hp hcounts
    · rw [List.mem_singleton.mp hp]
      exact .inr (.inl (by simp))
  | step k =>
    refine ⟨h.ceiling, fun p hp hcounts => ?_⟩
    obtain ⟨n, hn⟩ := List.mem_iff_getElem?.mp hp
    simp only [after, List.getElem?_modify] at hn
    obtain ⟨q, hq, rfl⟩ := Option.map_eq_some_iff.mp hn
    have halert := h.alert q (List.mem_of_getElem? hq)
    split
    · next heq =>
      rw [if_pos heq, Patron.goal_step] at hcounts
      exact q.alert_step _ (halert hcounts)
    · next heq =>
      rw [if_neg heq] at hcounts
      exact halert hcounts

theorem wakeful_play (moves : List Move) (h : l.Wakeful max) : (l.play moves).Wakeful max :=
  List.foldlRecOn (motive := Wakeful max) moves _ h fun _ h move _ => wakeful_after move h

/-! ## Who is done -/

theorem play_snoc (l : Lobby) (moves : List Move) (move : Move) :
    l.play (moves ++ [move]) = (l.play moves).after move := by
  simp [play]

/-- Number `k` is in the lobby, and takes a step while the intake is as it wishes. -/
def Finds (l : Lobby) (k : Nat) (goal : Intake.Goal) (before : List Move) (move : Move) : Prop :=
  move = .step k ∧ k < (l.play before).patrons.length ∧ goal.holds (l.play before).intake = true

/-- Whoever is done after a move was there before, and was done or has found what it waits for. -/
theorem finished_after {move : Move} {k : Nat} {p : Patron}
    (hp : (l.after move).patrons[k]? = some p) (hfinished : p.waiter.finished = true) :
    ∃ q, l.patrons[k]? = some q ∧ q.waiter.goal = p.waiter.goal ∧
      (q.waiter.finished = true ∨ move = .step k ∧ p.waiter.goal.holds l.intake = true) := by
  cases move with
  | operate op =>
    simp only [after] at hp
    split at hp
    · rw [List.getElem?_map] at hp
      obtain ⟨q, hq, rfl⟩ := Option.map_eq_some_iff.mp hp
      exact ⟨q, hq, rfl, .inl hfinished⟩
    · exact ⟨p, hp, rfl, .inl hfinished⟩
  | arrive goal =>
    simp only [after, List.getElem?_append] at hp
    split at hp
    · exact ⟨p, hp, rfl, .inl hfinished⟩
    · rw [List.mem_singleton.mp (List.mem_of_getElem? hp)] at hfinished
      cases hfinished
  | step m =>
    simp only [after, List.getElem?_modify] at hp
    obtain ⟨q, hq, rfl⟩ := Option.map_eq_some_iff.mp hp
    split at hfinished
    · next heq =>
      subst heq
      rw [if_pos rfl, Patron.goal_step]
      refine ⟨q, hq, rfl, ?_⟩
      rcases Patron.finished_step hfinished with hdone | hholds
      · exact .inl hdone
      · exact .inr ⟨rfl, hholds⟩
    · next heq =>
      rw [if_neg heq]
      exact ⟨q, hq, rfl, .inl hfinished⟩

theorem finds_of_finished {moves : List Move} {k : Nat} {p : Patron} (hempty : l.patrons = [])
    (hp : (l.play moves).patrons[k]? = some p) (hfinished : p.waiter.finished = true) :
    Sometime (l.Finds k p.waiter.goal) moves := by
  induction moves using List.reverseRecOn generalizing p with
  | nil =>
    rw [play, List.foldl_nil, hempty] at hp
    cases hp
  | append_singleton moves move ih =>
    rw [play_snoc] at hp
    obtain ⟨q, hq, hgoal, hcause⟩ := finished_after hp hfinished
    rw [sometime_snoc, ← hgoal]
    rcases hcause with hdone | ⟨rfl, hholds⟩
    · exact .inl (ih hq hdone)
    · rw [← hgoal] at hholds
      exact .inr ⟨rfl, (List.getElem?_eq_some_iff.mp hq).1, hholds⟩

/-- Whatever is done to an intake with places, and in whatever order those who wait for it take
their steps: when nobody has anything left to do, whoever still waits has something to wait for, and
whoever is done has found what it waited for at some time since it came. -/
theorem no_call_is_lost (max : Option Nat) (moves : List Move) :
    let l := play { intake := { maxConcurrent := max } } moves
    (l.Settled → ∀ p ∈ l.patrons, p.waiter.goal = .idle ∨ max ≠ some 0 →
      p.waiter.finished = false → p.waiter.goal.holds l.intake = false) ∧
    ∀ k p, l.patrons[k]? = some p → p.waiter.finished = true →
      Sometime (Finds { intake := { maxConcurrent := max } } k p.waiter.goal) moves := by
  intro l
  have hwakeful : l.Wakeful max := wakeful_play moves ⟨rfl, fun p hp => nomatch hp⟩
  refine ⟨fun hsettled p hp hcounts hpending => ?_, fun k p hp hfinished => ?_⟩
  · exact Patron.not_holds_of_rests (hsettled p hp) (hwakeful.alert p hp hcounts) hpending
  · exact finds_of_finished rfl hp hfinished

/-- The first of two who wait is called by a stop, and the second comes when there is work. -/
theorem stop_calls_the_first :
    let moves : List Move := [.operate (.start false), .arrive .done, .step 0, .step 0,
      .operate (.stop true), .step 0, .step 0, .step 0, .operate (.start true),
      .operate (.deliver default), .arrive .done, .step 1, .step 1]
    let l := play { intake := { maxConcurrent := some 1 } } moves
    l.patrons.map (·.waiter.finished) = [true, false] ∧ l.intake.isDone = false ∧
      Sometime (Finds { intake := { maxConcurrent := some 1 } } 0 .done) moves := by
  intro moves l
  have hpatrons : l.patrons = [⟨⟨.done, false, true⟩, .asleep⟩, ⟨⟨.done, false, false⟩, .asleep⟩] :=
    rfl
  have hsettled : l.Settled := by
    rw [Settled, hpatrons]
    exact List.forall_mem_cons.mpr ⟨rfl, List.forall_mem_singleton.mpr rfl⟩
  obtain ⟨hpending, hfound⟩ := no_call_is_lost (some 1) moves
  have hlast : ⟨⟨.done, false, false⟩, .asleep⟩ ∈ l.patrons := by
    rw [hpatrons]
    exact List.mem_cons_of_mem _ (List.mem_singleton_self _)
  exact ⟨rfl, hpending hsettled _ hlast (.inr (by decide)) rfl,
    hfound 0 ⟨⟨.done, false, true⟩, .asleep⟩ rfl rfl⟩

/-- Without any places, what is delivered makes the intake done, and who waits for it sleeps on. -/
theorem call_is_lost_without_places :
    let l := play { intake := { maxConcurrent := some 0 } } [.operate (.start false),
      .arrive .done, .step 0, .step 0, .operate (.deliver default)]
    l.Settled ∧ l.intake.isDone = true ∧
      ∃ p ∈ l.patrons, p.waiter.goal = .done ∧ p.waiter.finished = false := by
  refine ⟨?_, rfl, ⟨_, List.mem_cons_self, rfl, rfl⟩⟩
  intro p hp
  rw [List.mem_singleton.mp hp]
  rfl

end Lobby

end LaunchDesk
