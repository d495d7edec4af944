import LaunchDesk.Proofs.Intake.Growth

/-!
# Places at an intake

A crew is an intake with the work on every opportunity that it has admitted. The work goes on, it
ends somehow, and later on its place is freed. Whatever is done to a crew in whatever order, no more
places are taken than there are, every opportunity gets the next number, and every place is freed
once.
-/

namespace LaunchDesk.Intake

inductive Task
  | working
  /-- The work has ended, and its place is still taken. -/
  | ended (ending : Ending)
  | freed
deriving DecidableEq

def Task.hasPlace : Task → Bool
  | .freed => false
  | _ => true

structure Crew where
  intake : Intake
  /-- The work by the order of admission. -/
  tasks : List Task := []

inductive Act
  | start (resuming : Bool)
  | stop (force : Bool)
  /-- The feed delivers to the listener that it has, or to the last one that it accepted. -/
  | deliver (stale : Bool) (opportunity : Opportunity)
  /-- The feed makes up its mind about the next attempts to attach to it. -/
  | prepare (fault : Option String) (interruption : Option Interruption)
  | finish (task : Nat) (ending : Ending)
  | release (task : Nat)

namespace Crew

/-- Goes on with the intake as it is after something was done; work on what it admitted begins. -/
def settle (c : Crew) (i : Intake) : Crew where
  intake := i
  tasks := c.tasks ++
    (admissions (i.notes.drop c.intake.notes.length)).map fun _ => .working

def passesOn (c : Crew) (stale : Bool) : Bool :=
  if stale then c.intake.feed.everAttached else c.intake.feed.attached

def setTask (c : Crew) (k : Nat) (task : Task) : Crew := { c with tasks := c.tasks.set k task }

def taken (tasks : List Task) : Nat := tasks.countP Task.hasPlace

/-- A crew after an act. Only work that goes on can end, and only a place whose work has ended is
freed. -/
def after (c : Crew) : Act → Crew
  | .start resuming => c.settle (c.intake.start resuming).1
  | .stop force => c.settle (c.intake.stop force)
  | .deliver stale opportunity =>
    if c.passesOn stale then c.settle (c.intake.deliver opportunity) else c
  | .prepare fault interruption =>
    { c with intake := c.intake.updateFeed fun f =>
      { f with nextFault := fault, interruption := interruption } }
  | .finish k ending => if c.tasks[k]? = some .working then c.setTask k (.ended ending) else c
  | .release k =>
    match c.tasks[k]? with
    | some (.ended ending) => (c.setTask k .freed).settle (c.intake.finish k ending)
    | _ => c

def work (max : Option Nat) (acts : List Act) : Crew :=
  acts.foldl after { intake := { maxConcurrent := max } }

/-- The delivery that comes in during an act, if there is one, with the intake as it then is. -/
def offer (c : Crew) : Act → Option (Intake × Opportunity)
  | .start resuming => c.intake.offerInStart resuming
  | .stop _ => none
  | .deliver stale opportunity => if c.passesOn stale then some (c.intake, opportunity) else none
  | .prepare _ _ => none
  | .finish _ _ => none
  | .release k =>
    match c.tasks[k]? with
    | some (.ended ending) => (c.intake.log (ending.logLine k)).offerInRelease
    | _ => none

def admittedBy (c : Crew) (act : Act) : List (Nat × Opportunity) :=
  admissions ((c.after act).intake.notes.drop c.intake.notes.length)

/-! ## The invariant -/

structure Sound (max : Option Nat) (c : Crew) : Prop where
  ceiling : c.intake.maxConcurrent = max
  within : c.intake.WithinCeiling
  numbers : (admissions c.intake.notes).map (·.1) = List.range c.tasks.length
  nextIndex : c.intake.nextIndex = c.tasks.length
  places : c.intake.inProgress = taken c.tasks

variable {max : Option Nat} {c : Crew} {i : Intake} {more : List Note} {k : Nat}
variable {task old : Task} {ending : Ending}

theorem taken_working (tasks : List Task) (n : Nat) :
    taken (tasks ++ List.replicate n .working) = taken tasks + n := by
  rw [taken, List.countP_append, List.countP_replicate]
  rfl

theorem taken_pos {tasks : List Task} (h : tasks[k]? = some task) (htask : task.hasPlace) :
    0 < taken tasks :=
  List.countP_pos_iff.mpr ⟨task, List.mem_of_getElem? h, htask⟩

theorem taken_set {tasks : List Task} (h : tasks[k]? = some old) (hold : old.hasPlace)
    (task : Task) :
    taken (tasks.set k task) + 1 = taken tasks + task.hasPlace.toNat := by
  obtain ⟨hlt, hget⟩ := List.getElem?_eq_some_iff.mp h
  have hpos := taken_pos h hold
  unfold taken at hpos ⊢
  rw [List.countP_set hlt, hget, if_pos hold]
  cases task.hasPlace with
  | true =>
    rw [if_pos rfl, Bool.toNat_true]
    omega
  | false =>
    rw [if_neg Bool.false_ne_true, Bool.toNat_false]
    omega

theorem Sound.new (max : Option Nat) : Sound max { intake := { maxConcurrent := max } } where
  ceiling := rfl
  within := fun _ _ => Nat.zero_le _
  numbers := rfl
  nextIndex := rfl
  places := rfl

theorem Sound.grow (h : Sound max c) (hg : Grows c.intake i more) :
    Sound max ⟨i, c.tasks ++ List.replicate (admissions more).length .working⟩ where
  ceiling := hg.ceiling.trans h.ceiling
  within := hg.within h.within
  numbers := by
    have hjoin := @List.range'_append_1 0 c.tasks.length (admissions more).length
    rw [Nat.zero_add] at hjoin
    rw [hg.notes, admissions_append, List.map_append, h.numbers, hg.numbers, h.nextIndex,
      List.length_append, List.length_replicate, List.range_eq_range', List.range_eq_range', hjoin]
  nextIndex := by rw [hg.nextIndex, h.nextIndex, List.length_append, List.length_replicate]
  places := by rw [hg.inProgress, h.places, taken_working]

theorem settle_eq (h : i.notes = c.intake.notes ++ more) :
    c.settle i = ⟨i, c.tasks ++ List.replicate (admissions more).length .working⟩ := by
  simp [settle, h, List.map_const']

theorem Sound.settle (h : Sound max c) (hg : Grows c.intake i more) : Sound max (c.settle i) := by
  rw [settle_eq hg.notes]
  exact h.grow hg

theorem Sound.finish (h : Sound max c) (hk : c.tasks[k]? = some .working) (ending : Ending) :
    Sound max (c.setTask k (.ended ending)) where
  ceiling := h.ceiling
  within := h.within
  numbers := by rw [setTask, List.length_set, ← h.numbers]
  nextIndex := by rw [setTask, List.length_set, ← h.nextIndex]
  places := by
    have htaken := taken_set hk rfl (.ended ending)
    exact h.places.trans (Nat.add_right_cancel htaken).symm

def relieved (c : Crew) (k : Nat) (ending : Ending) : Crew :=
  { intake := (c.intake.log (ending.logLine k)).relieved, tasks := c.tasks.set k .freed }

theorem Sound.relieved (h : Sound max c) (hk : c.tasks[k]? = some (.ended ending)) :
    Sound max (c.relieved k ending) where
  ceiling := h.ceiling
  within := fun m hm => Nat.le_trans (Nat.sub_le _ 1) (h.within m hm)
  numbers := by
    change (admissions (c.intake.notes ++ [_])).map (·.1) = _
    rw [admissions_append, Crew.relieved, List.length_set, ← h.numbers]
    simp
  nextIndex := by rw [Crew.relieved, List.length_set, ← h.nextIndex]; rfl
  places := by
    have htaken : taken (c.tasks.set k .freed) + 1 = taken c.tasks := taken_set hk rfl .freed
    change c.intake.inProgress - 1 = taken (c.tasks.set k .freed)
    rw [h.places, ← htaken, Nat.add_sub_cancel]

/-- What freeing a place does to a crew: it is relieved, and then its intake grows. -/
theorem after_release (hk : c.tasks[k]? = some (.ended ending)) :
    ∃ more, Grows (c.relieved k ending).intake (c.intake.finish k ending) more ∧
      admissions more = admitted (c.offer (.release k)) ∧
      c.after (.release k) = ⟨c.intake.finish k ending,
        c.tasks.set k .freed ++ List.replicate (admissions more).length .working⟩ := by
  obtain ⟨more, hgrows, hmore⟩ := grows_release (c.intake.log (ending.logLine k))
  refine ⟨more, hgrows, ?_, ?_⟩
  · rw [hmore, offer, hk]
  · -- The log line was noted before the place was given up, and admits nothing.
    have hnotes : (c.intake.finish k ending).notes =
        (c.setTask k .freed).intake.notes ++ (.log (ending.logLine k) :: more) := by
      exact hgrows.notes.trans (List.append_assoc c.intake.notes [_] more)
    simp only [after, hk]
    rw [settle_eq hnotes, admissions_log, setTask]

/-! ## Every run -/

theorem Sound.after (h : Sound max c) (act : Act) : Sound max (c.after act) := by
  cases act with
  | start resuming =>
    obtain ⟨more, hgrows, -⟩ := grows_start c.intake resuming
    exact h.settle hgrows
  | stop force =>
    obtain ⟨more, hgrows, -⟩ := grows_stop c.intake force
    exact h.settle hgrows
  | deliver stale opportunity =>
    change Sound max (if c.passesOn stale then _ else c)
    split
    · obtain ⟨more, hgrows, -⟩ := grows_deliver c.intake opportunity
      exact h.settle hgrows
    · exact h
  | prepare fault interruption =>
    have hgrown := h.grow (grows_updateFeed c.intake fun f =>
      { f with nextFault := fault, interruption := interruption })
    rwa [admissions_nil, List.length_nil, List.replicate_zero, List.append_nil] at hgrown
  | finish k ending =>
    simp only [Crew.after]
    split
    · next hk => exact h.finish hk ending
    · exact h
  | release k =>
    by_cases hk : ∃ ending, c.tasks[k]? = some (.ended ending)
    · obtain ⟨ending, hk⟩ := hk
      obtain ⟨more, hgrows, -, heq⟩ := after_release hk
      rw [heq]
      exact (h.relieved hk).grow hgrows
    · have hsame : c.after (.release k) = c := by
        simp only [Crew.after]
        split
        · next ending h => exact absurd ⟨ending, h⟩ hk
        · rfl
      rwa [hsame]

theorem sound_work (max : Option Nat) (acts : List Act) : Sound max (work max acts) := by
  induction acts using List.reverseRecOn with
  | nil => exact .new max
  | append_singleton acts act ih =>
    rw [work, List.foldl_append]
    exact ih.after act

/-! ## What an act admits -/

theorem admittedBy_of (act : Act) (h : (c.after act).intake.notes = c.intake.notes ++ more) :
    c.admittedBy act = admissions more := by
  rw [admittedBy, h, List.drop_left]

theorem admittedBy_eq (c : Crew) (act : Act) : c.admittedBy act = admitted (c.offer act) := by
  have hquiet : ∀ {act : Act}, (c.after act).intake.notes = c.intake.notes →
      c.admittedBy act = [] := fun h => admittedBy_of _ (h.trans (List.append_nil _).symm)
  cases act with
  | start resuming =>
    obtain ⟨more, hgrows, hmore⟩ := grows_start c.intake resuming
    exact (admittedBy_of (.start resuming) hgrows.notes).trans hmore
  | stop force =>
    obtain ⟨more, hgrows, hmore⟩ := grows_stop c.intake force
    exact (admittedBy_of (.stop force) hgrows.notes).trans hmore
  | deliver stale opportunity =>
    obtain ⟨more, hgrows, hmore⟩ := grows_deliver c.intake opportunity
    by_cases hpass : c.passesOn stale
    · rw [offer, if_pos hpass, admitted, ← hmore]
      exact admittedBy_of _ (by rw [Crew.after, if_pos hpass]; exact hgrows.notes)
    · rw [offer, if_neg hpass, admitted]
      exact hquiet (by rw [Crew.after, if_neg hpass])
  | prepare fault interruption => exact hquiet rfl
  | finish k ending =>
    refine hquiet ?_
    simp only [Crew.after]
    split
    · rfl
    · rfl
  | release k =>
    by_cases hk : ∃ ending, c.tasks[k]? = some (.ended ending)
    · obtain ⟨ending, hk⟩ := hk
      obtain ⟨more, hgrows, hmore, heq⟩ := after_release hk
      have hnotes : (c.after (.release k)).intake.notes =
          c.intake.notes ++ (.log (ending.logLine k) :: more) := by
        rw [heq]
        exact hgrows.notes.trans (List.append_assoc c.intake.notes [_] more)
      rw [admittedBy_of _ hnotes, admissions_log, hmore]
    · have hfree : c.after (.release k) = c ∧ c.offer (.release k) = none := by
        simp only [Crew.after, offer]
        split
        · next ending h => exact absurd ⟨ending, h⟩ hk
        · exact ⟨rfl, rfl⟩
      rw [hfree.2, admitted]
      exact hquiet (by rw [hfree.1])

/-- An intake to which something comes in has the ceiling and the next number that it had before the
act, and it has taken no further place. -/
theorem offer_from {act : Act} {opportunity : Opportunity}
    (h : c.offer act = some (i, opportunity)) :
    i.maxConcurrent = c.intake.maxConcurrent ∧ i.nextIndex = c.intake.nextIndex ∧
      i.inProgress ≤ c.intake.inProgress := by
  cases act with
  | start resuming =>
    obtain rfl := eq_accepted_of_offerInStart h
    exact ⟨rfl, rfl, Nat.le_refl _⟩
  | deliver stale opportunity =>
    simp only [offer] at h
    split at h
    · cases h
      exact ⟨rfl, rfl, Nat.le_refl _⟩
    · cases h
  | release k =>
    simp only [offer] at h
    split at h
    · obtain rfl := eq_accepted_of_offerInRelease h
      exact ⟨rfl, rfl, Nat.sub_le _ 1⟩
    · cases h
  | stop force => cases h
  | prepare fault interruption => cases h
  | finish k ending => cases h

theorem mem_admitted {offer : Option (Intake × Opportunity)} {opportunity : Opportunity} :
    (k, opportunity) ∈ admitted offer ↔
      ∃ i, offer = some (i, opportunity) ∧ i.nextIndex = k ∧ i.listening ∧ i.HasRoom := by
  have hopen : ∀ i : Intake, (i.listening && !i.isFull) = true ↔ i.listening ∧ i.HasRoom := by
    intro i
    rw [Bool.and_eq_true, Bool.not_eq_true', isFull_eq_false_iff]
  constructor
  · intro h
    rcases offer with _ | ⟨i, o⟩
    · cases h
    · simp only [admitted] at h
      split at h
      · next hi =>
        obtain ⟨rfl, rfl⟩ := Prod.mk.inj (List.mem_singleton.mp h)
        exact ⟨i, rfl, rfl, (hopen i).mp hi⟩
      · cases h
  · rintro ⟨i, rfl, rfl, hi⟩
    rw [admitted, if_pos ((hopen i).mpr hi)]
    exact List.mem_singleton_self _

theorem release_frees (hk : c.tasks[k]? = some (.ended ending)) :
    (c.after (.release k)).tasks[k]? = some .freed := by
  obtain ⟨hlt, -⟩ := List.getElem?_eq_some_iff.mp hk
  obtain ⟨more, -, -, heq⟩ := after_release hk
  have hlen : k < (c.tasks.set k .freed).length := by rwa [List.length_set]
  rw [heq]
  change (c.tasks.set k .freed ++ _)[k]? = _
  rw [List.getElem?_append_left hlen, List.getElem?_set_self hlt]

theorem settle_keeps (i : Intake) (h : c.tasks[k]? = some task) :
    (c.settle i).tasks[k]? = some task := by
  obtain ⟨hlt, -⟩ := List.getElem?_eq_some_iff.mp h
  exact (List.getElem?_append_left hlt).trans h

theorem freed_after (act : Act) (h : c.tasks[k]? = some .freed) :
    (c.after act).tasks[k]? = some .freed := by
  cases act with
  | start resuming => exact settle_keeps _ h
  | stop force => exact settle_keeps _ h
  | deliver stale opportunity =>
    change (if c.passesOn stale then _ else c).tasks[k]? = _
    split
    · exact settle_keeps _ h
    · exact h
  | prepare fault interruption => exact h
  | finish l ending =>
    simp only [Crew.after]
    split
    · next hl =>
      have hne : l ≠ k := by
        rintro rfl
        rw [h] at hl
        cases hl
      exact (List.getElem?_set_ne hne).trans h
    · exact h
  | release l =>
    simp only [Crew.after]
    split
    · next ending hl =>
      have hne : l ≠ k := by
        rintro rfl
        rw [h] at hl
        cases hl
      exact settle_keeps _ ((List.getElem?_set_ne hne).trans h)
    · exact h

theorem taken_add_ended {tasks : List Task} (h : ∀ ending, .ended ending ∉ tasks) :
    taken tasks + tasks.countP (· ≠ .working) = tasks.length := by
  have hended : tasks.countP (· ≠ .working) = tasks.countP fun task => ¬task.hasPlace := by
    refine List.countP_congr fun task htask => ?_
    cases task with
    | working => decide
    | ended ending => exact absurd htask (h ending)
    | freed => decide
  rw [hended, taken, ← List.length_eq_countP_add_countP]

/-- Whatever is done to a crew in whatever order: no more places are taken than there are, also when
something comes in while the intake attaches itself to the feed; what comes in is admitted if the
intake listens and has room, with the next number, and else not; and every place is freed once. -/
theorem work_keeps_places (max : Option Nat) (acts : List Act) :
    let c := work max acts
    (∀ m, max = some m → c.intake.inProgress ≤ m) ∧
    (∀ act i opportunity, c.offer act = some (i, opportunity) →
      ∀ m, max = some m → i.inProgress ≤ m) ∧
    (∀ act k opportunity, (k, opportunity) ∈ c.admittedBy act ↔
      k = c.tasks.length ∧ ∃ i, c.offer act = some (i, opportunity) ∧ i.listening ∧
        ∀ m, max = some m → i.inProgress < m) ∧
    (admissions c.intake.notes).map (·.1) = List.range c.tasks.length ∧
    c.intake.inProgress = taken c.tasks ∧
    ((∀ ending, .ended ending ∉ c.tasks) →
      c.intake.inProgress + c.tasks.countP (· ≠ .working) = c.tasks.length) ∧
    (∀ (k : Nat) ending, c.tasks[k]? = some (.ended ending) →
      0 < c.intake.inProgress ∧ (c.after (.release k)).tasks[k]? = some .freed) ∧
    ∀ act (k : Nat), c.tasks[k]? = some .freed → (c.after act).tasks[k]? = some .freed := by
  intro c
  have h : Sound max c := sound_work max acts
  have hwithin : ∀ m, max = some m → c.intake.inProgress ≤ m := by
    intro m hm
    exact h.within m (h.ceiling.trans hm)
  refine ⟨hwithin, ?_, ?_, h.numbers, h.places, ?_, ?_, ?_⟩
  · intro act i opportunity hoffer m hm
    exact Nat.le_trans (offer_from hoffer).2.2 (hwithin m hm)
  · intro act k opportunity
    rw [admittedBy_eq, mem_admitted]
    constructor
    · rintro ⟨i, hoffer, rfl, hlisten, hroom⟩
      obtain ⟨hceiling, hnext, -⟩ := offer_from hoffer
      refine ⟨hnext.trans h.nextIndex, i, hoffer, hlisten, fun m hm => hroom m ?_⟩
      rw [hceiling, h.ceiling, hm]
    · rintro ⟨rfl, i, hoffer, hlisten, hroom⟩
      obtain ⟨hceiling, hnext, -⟩ := offer_from hoffer
      refine ⟨i, hoffer, hnext.trans h.nextIndex, hlisten, fun m hm => hroom m ?_⟩
      rw [← h.ceiling, ← hceiling, hm]
  · intro hnone
    rw [h.places]
    exact taken_add_ended hnone
  · intro k ending hk
    rw [h.places]
    exact ⟨taken_pos hk rfl, release_frees hk⟩
  · intro act k hk
    exact freed_after act hk

end Crew

end LaunchDesk.Intake
