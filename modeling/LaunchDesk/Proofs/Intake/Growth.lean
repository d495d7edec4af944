import LaunchDesk.Intake
import Mathlib.Data.List.Range

/-!
# What an intake admits

All that an intake does, save freeing a place, makes it grow: it notes more, and for each admission
among its new notes there is one more place taken and one number given. `Grows` says so, and every
operation has its own lemma.
-/

namespace LaunchDesk.Intake

variable {i j k : Intake} {more further : List Note}

def admissions (notes : List Note) : List (Nat × Opportunity) :=
  notes.filterMap fun
    | .admitted index opportunity => some (index, opportunity)
    | _ => none

@[simp] theorem admissions_nil : admissions [] = [] := rfl

@[simp] theorem admissions_append (a b : List Note) :
    admissions (a ++ b) = admissions a ++ admissions b := by simp [admissions]

@[simp] theorem admissions_log (line : Log.Line) (notes : List Note) :
    admissions (.log line :: notes) = admissions notes := rfl

@[simp] theorem admissions_changed (notes : List Note) :
    admissions (.changed :: notes) = admissions notes := rfl

/-- No more is worked on than may be. -/
def WithinCeiling (i : Intake) : Prop := ∀ max, i.maxConcurrent = some max → i.inProgress ≤ max

def HasRoom (i : Intake) : Prop := ∀ max, i.maxConcurrent = some max → i.inProgress < max

theorem isFull_eq_false_iff : i.isFull = false ↔ i.HasRoom := by
  unfold isFull HasRoom
  cases i.maxConcurrent with
  | none => simp
  | some max => simp

/-- `j` comes from `i` by noting `more`, and by admitting what that says. -/
structure Grows (i j : Intake) (more : List Note) : Prop where
  notes : j.notes = i.notes ++ more
  ceiling : j.maxConcurrent = i.maxConcurrent
  numbers : (admissions more).map (·.1) = List.range' i.nextIndex (admissions more).length
  nextIndex : j.nextIndex = i.nextIndex + (admissions more).length
  inProgress : j.inProgress = i.inProgress + (admissions more).length
  within : i.WithinCeiling → j.WithinCeiling

namespace Grows

theorem of_quiet (hnotes : j.notes = i.notes ++ more) (hmore : admissions more = [])
    (hceiling : j.maxConcurrent = i.maxConcurrent) (hnext : j.nextIndex = i.nextIndex)
    (hwork : j.inProgress = i.inProgress) : Grows i j more where
  notes := hnotes
  ceiling := hceiling
  numbers := by simp [hmore]
  nextIndex := by simp [hmore, hnext]
  inProgress := by simp [hmore, hwork]
  within := by
    intro h max hmax
    rw [hwork]
    exact h max (hceiling ▸ hmax)

theorem refl (i : Intake) : Grows i i [] := of_quiet (by simp) rfl rfl rfl rfl

theorem trans (h : Grows i j more) (h' : Grows j k further) : Grows i k (more ++ further) where
  notes := by rw [h'.notes, h.notes, List.append_assoc]
  ceiling := h'.ceiling.trans h.ceiling
  numbers := by
    rw [admissions_append, List.map_append, h.numbers, h'.numbers, h.nextIndex, List.length_append]
    exact List.range'_append_1
  nextIndex := by rw [h'.nextIndex, h.nextIndex, admissions_append, List.length_append]; omega
  inProgress := by rw [h'.inProgress, h.inProgress, admissions_append, List.length_append]; omega
  within := fun hi => h'.within (h.within hi)

end Grows

/-! ## Operations that admit nothing -/

theorem grows_log (i : Intake) (line : Log.Line) : Grows i (i.log line) [.log line] :=
  .of_quiet rfl rfl rfl rfl rfl

theorem grows_changed (i : Intake) : Grows i (i.note .changed) [.changed] :=
  .of_quiet rfl rfl rfl rfl rfl

theorem grows_updateFeed (i : Intake) (f : Feed → Feed) : Grows i (i.updateFeed f) [] :=
  .of_quiet (by simp [updateFeed]) rfl rfl rfl rfl

theorem grows_listening (i : Intake) (listening forced : Bool) (feed : Feed) :
    Grows i { i with listening := listening, forced := forced, feed := feed } [] :=
  .of_quiet (by simp) rfl rfl rfl rfl

theorem grows_stop (i : Intake) (force : Bool) :
    ∃ more, Grows i (i.stop force) more ∧ admissions more = [] := by
  unfold stop
  split
  · exact ⟨_, ((grows_listening i false (i.forced || force) i.feed).trans ((grows_log _ _).trans
      (grows_updateFeed _ _))).trans (grows_changed _), rfl⟩
  · exact ⟨_, (grows_listening i false (i.forced || force) i.feed).trans (grows_changed _), rfl⟩

theorem grows_pause (i : Intake) : Grows i i.pause [] := by
  unfold pause
  split
  · exact (grows_listening i false i.forced i.feed).trans (grows_updateFeed _ _)
  · exact .refl i

theorem grows_startAgain (i : Intake) :
    ∃ more, Grows i i.startAgain more ∧ admissions more = [] :=
  ⟨_, (grows_listening i i.listening false i.feed).trans (grows_log _ _), rfl⟩

/-! ## Deliveries -/

/-- The intake while it gives a place to an opportunity, before it looks at its ceiling. -/
def welcome (i : Intake) (opportunity : Opportunity) : Intake :=
  (({ i with inProgress := i.inProgress + 1, nextIndex := i.nextIndex + 1 }.log
    (.info "Admitted opportunity"
      [("task_index", toString i.nextIndex), ("mint", opportunity.mint)])).note
    (.admitted i.nextIndex opportunity))

theorem grows_welcome (opportunity : Opportunity) (hroom : i.HasRoom) :
    ∃ more, Grows i (i.welcome opportunity) more ∧
      admissions more = [(i.nextIndex, opportunity)] := by
  refine ⟨_, ⟨List.append_assoc i.notes [_] [_], rfl, rfl, rfl, rfl, ?_⟩, rfl⟩
  exact fun _ max hmax => hroom max hmax

theorem grows_takeOn (opportunity : Opportunity) (hroom : i.HasRoom) :
    ∃ more, Grows i (i.takeOn opportunity) more ∧
      admissions more = [(i.nextIndex, opportunity)] := by
  obtain ⟨more, hgrows, hmore⟩ := grows_welcome opportunity hroom
  change ∃ more, Grows i (if (i.welcome opportunity).isFull then _ else _) more ∧ _
  split
  · refine ⟨_, hgrows.trans ((grows_log _ _).trans (grows_pause _)), ?_⟩
    simp [hmore]
  · exact ⟨more, hgrows, hmore⟩

/-- An opportunity that comes in is admitted if the intake listens and has room, and else not. -/
theorem grows_deliver (i : Intake) (opportunity : Opportunity) :
    ∃ more, Grows i (i.deliver opportunity) more ∧ admissions more =
      if i.listening && !i.isFull then [(i.nextIndex, opportunity)] else [] := by
  unfold deliver
  cases hl : i.listening with
  | false => exact ⟨_, grows_log _ _, rfl⟩
  | true =>
    cases hf : i.isFull with
    | true => exact ⟨_, (grows_log _ _).trans (grows_pause _), rfl⟩
    | false => exact grows_takeOn opportunity (isFull_eq_false_iff.mp hf)

/-! ## Listening to the feed -/

/-- What is admitted of an opportunity that comes in at an intake, with the number it gets. -/
def admitted : Option (Intake × Opportunity) → List (Nat × Opportunity)
  | none => []
  | some (i, opportunity) =>
    if i.listening && !i.isFull then [(i.nextIndex, opportunity)] else []

/-- The intake when the feed has accepted it and not yet put it in place. -/
def accepted (i : Intake) : Intake := { i with feed := i.feed.attempt.2.accept.2 }

/-- The intake when the feed puts it in place. -/
def interrupted (i : Intake) : Intake := i.feed.interruption.elim i.accepted i.accepted.interrupt

/-- The intake after the feed has put it in place: one that was stopped meanwhile lets go again. -/
def attached (i : Intake) : Intake :=
  if i.listening then i.updateFeed Feed.attach
  else ((i.updateFeed Feed.attach).log
    (.debug "Intake stopped while subscribing, dropping feed subscription")).detach

theorem connect_of_refused {text : String} (h : i.feed.nextFault = some text) :
    i.connect = ({ i with feed := i.feed.attempt.2, listening := false }, some (.feed text)) := by
  simp [connect, Feed.attempt, h]

theorem connect_of_accepted (h : i.feed.nextFault = none) :
    i.connect = (i.interrupted.attached, none) := by
  simp only [connect, Feed.attempt, Feed.accept, h, Option.map_none]
  change (if i.interrupted.listening then _ else _) = (i.interrupted.attached, none)
  unfold attached
  split
  · rfl
  · rfl

/-- A delivery that comes in while the intake attaches itself to the feed. -/
def offerInConnect (i : Intake) : Option (Intake × Opportunity) :=
  match i.feed.nextFault, i.feed.interruption with
  | none, some (.deliver opportunity) => some (i.accepted, opportunity)
  | _, _ => none

theorem eq_accepted_of_offerInConnect {opportunity : Opportunity}
    (h : i.offerInConnect = some (j, opportunity)) : j = i.accepted := by
  unfold offerInConnect at h
  split at h
  · cases h
    rfl
  · cases h

theorem grows_interrupted (i : Intake) (h : i.feed.nextFault = none) :
    ∃ more, Grows i i.interrupted more ∧ admissions more = admitted i.offerInConnect := by
  have haccepted : Grows i i.accepted [] := grows_listening i i.listening i.forced _
  unfold interrupted offerInConnect
  rw [h]
  cases i.feed.interruption with
  | none => exact ⟨_, haccepted, rfl⟩
  | some interruption =>
    cases interruption with
    | stop force =>
      obtain ⟨more, hgrows, hmore⟩ := grows_stop i.accepted force
      exact ⟨_, haccepted.trans hgrows, hmore⟩
    | start =>
      obtain ⟨more, hgrows, hmore⟩ := grows_startAgain i.accepted
      exact ⟨_, haccepted.trans hgrows, hmore⟩
    | deliver opportunity =>
      obtain ⟨more, hgrows, hmore⟩ := grows_deliver i.accepted opportunity
      exact ⟨_, haccepted.trans hgrows, hmore⟩

theorem grows_attached (i : Intake) : ∃ more, Grows i i.attached more ∧ admissions more = [] := by
  have hattach := grows_updateFeed i Feed.attach
  unfold attached
  split
  · exact ⟨_, hattach, rfl⟩
  · exact ⟨_, hattach.trans ((grows_log _ _).trans (grows_updateFeed _ _)), rfl⟩

theorem grows_connect (i : Intake) :
    ∃ more, Grows i i.connect.1 more ∧ admissions more = admitted i.offerInConnect := by
  cases hf : i.feed.nextFault with
  | some text =>
    rw [connect_of_refused hf, offerInConnect, hf]
    exact ⟨_, grows_listening i false i.forced _, rfl⟩
  | none =>
    rw [connect_of_accepted hf]
    obtain ⟨first, hfirst, hadmits⟩ := grows_interrupted i hf
    obtain ⟨more, hgrows, hmore⟩ := grows_attached i.interrupted
    refine ⟨_, hfirst.trans hgrows, ?_⟩
    rw [admissions_append, hadmits, hmore, List.append_nil]

/-- The intake when it begins to attach itself to the feed, with the line for the log. -/
def readied (i : Intake) (forced : Bool) (line : Log.Line) : Intake :=
  { i with forced := forced, listening := true }.log line

theorem grows_readied (i : Intake) (forced : Bool) (line : Log.Line) :
    ∃ more, Grows i (i.readied forced line).connect.1 more ∧
      admissions more = admitted (i.readied forced line).offerInConnect := by
  obtain ⟨more, hgrows, hmore⟩ := grows_connect (i.readied forced line)
  exact ⟨_, (grows_listening i true forced i.feed).trans ((grows_log _ line).trans hgrows), hmore⟩

def startLine (i : Intake) (resuming : Bool) : Log.Line :=
  if resuming then .info "Resuming opportunity intake"
  else .info "Starting opportunity intake"
    [("max_concurrent", Log.optional toString i.maxConcurrent)]

def offerInStart (i : Intake) (resuming : Bool) : Option (Intake × Opportunity) :=
  if i.listening then none else (i.readied false (i.startLine resuming)).offerInConnect

theorem eq_accepted_of_offerInStart {opportunity : Opportunity} {resuming : Bool}
    (h : i.offerInStart resuming = some (j, opportunity)) :
    j = (i.readied false (i.startLine resuming)).accepted := by
  unfold offerInStart at h
  split at h
  · cases h
  · exact eq_accepted_of_offerInConnect h

theorem grows_start (i : Intake) (resuming : Bool) :
    ∃ more, Grows i (i.start resuming).1 more ∧
      admissions more = admitted (i.offerInStart resuming) := by
  unfold start offerInStart
  cases i.listening with
  | true => exact grows_startAgain i
  | false => exact grows_readied i false (i.startLine resuming)

/-! ## Freeing a place -/

def relieved (i : Intake) : Intake := { i with inProgress := i.inProgress - 1 }

def resumeLine : Log.Line := .info "Capacity freed, resuming opportunity intake"

def offerInRelease (i : Intake) : Option (Intake × Opportunity) :=
  if i.relieved.resumes then (i.relieved.readied i.forced resumeLine).offerInConnect else none

theorem eq_accepted_of_offerInRelease {opportunity : Opportunity}
    (h : i.offerInRelease = some (j, opportunity)) :
    j = (i.relieved.readied i.forced resumeLine).accepted := by
  unfold offerInRelease at h
  split at h
  · exact eq_accepted_of_offerInConnect h
  · cases h

theorem release_eq (i : Intake) :
    i.release = (if i.relieved.resumes then
      match (i.relieved.readied i.forced resumeLine).connect with
      | (i, none) => i
      | (i, some fault) =>
        i.log (.warn "Failed to resume opportunity intake" [("error", fault.message)])
    else i.relieved).note .changed := rfl

theorem grows_release (i : Intake) :
    ∃ more, Grows i.relieved i.release more ∧ admissions more = admitted i.offerInRelease := by
  rw [release_eq]
  unfold offerInRelease
  split
  · obtain ⟨more, hgrows, hmore⟩ := grows_readied i.relieved i.forced resumeLine
    rw [← hmore]
    generalize (i.relieved.readied i.forced resumeLine).connect = p at hgrows ⊢
    obtain ⟨j, fault | fault⟩ := p
    · exact ⟨_, hgrows.trans (grows_changed j), by simp⟩
    · exact ⟨_, hgrows.trans ((grows_log j _).trans (grows_changed _)), by simp⟩
  · exact ⟨_, grows_changed _, rfl⟩

end LaunchDesk.Intake
