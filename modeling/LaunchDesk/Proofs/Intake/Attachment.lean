import LaunchDesk.Proofs.Intake.Growth

/-!
# The intake and its feed

An operation is what anyone may ask of an intake, or what the feed makes up its mind about. The feed
has a listener in place after an operation exactly if the intake listens then, and it is asked to
attach one only while it has none.
-/

namespace LaunchDesk.Intake

inductive Operation
  | start (resuming : Bool)
  | stop (force : Bool)
  | deliver (opportunity : Opportunity)
  | finish (task : Nat) (ending : Ending)
  | prepare (fault : Option String) (interruption : Option Interruption)

def Operation.isStart : Operation → Bool
  | .start _ => true
  | _ => false

variable {i j : Intake} {op : Operation}

def perform (i : Intake) : Operation → Intake
  | .start resuming => (i.start resuming).1
  | .stop force => i.stop force
  | .deliver opportunity => i.deliver opportunity
  | .finish task ending => i.finish task ending
  | .prepare fault interruption =>
    i.updateFeed fun f => { f with nextFault := fault, interruption := interruption }

def cleared (i : Intake) : Intake := { i with notes := [] }

/-- An operation whose notes are taken over at once. -/
def handle (i : Intake) (op : Operation) : Intake := (i.perform op).cleared

def handleAll (i : Intake) (ops : List Operation) : Intake := ops.foldl handle i

theorem handleAll_append (i : Intake) (ops more : List Operation) :
    i.handleAll (ops ++ more) = (i.handleAll ops).handleAll more := List.foldl_append

/-- The intake as it is when it asks the feed to attach it, if it does so in an operation. -/
def asks? (i : Intake) : Operation → Option Intake
  | .start resuming => if i.listening then none else some (i.readied false (i.startLine resuming))
  | .finish task ending =>
    let j := (i.log (ending.logLine task)).relieved
    if j.resumes then some (j.readied j.forced resumeLine) else none
  | _ => none

/-! ## Asking the feed -/

theorem listening_eq_false_of_resumes (h : i.resumes) : i.listening = false := by
  simp only [resumes, Bool.and_eq_true, Bool.not_eq_true'] at h
  exact h.1.1

theorem start_of_listening (resuming : Bool) (h : i.listening = true) :
    i.start resuming = (i.startAgain, none) := by
  unfold start
  rw [if_pos h]

theorem start_of_not_listening (resuming : Bool) (h : i.listening = false) :
    i.start resuming = (i.readied false (i.startLine resuming)).connect := by
  unfold start
  rw [if_neg (by simp [h])]
  rfl

theorem release_of_resumes (h : i.relieved.resumes) :
    i.release.cleared = (i.relieved.readied i.forced resumeLine).connect.1.cleared := by
  rw [release_eq, if_pos h]
  generalize (i.relieved.readied i.forced resumeLine).connect = p
  obtain ⟨j, _ | fault⟩ := p
  · rfl
  · rfl

theorem release_of_not_resumes (h : ¬ i.relieved.resumes) :
    i.release = i.relieved.note .changed := by
  rw [release_eq, if_neg h]

/-- Only a start and a place that is freed make an intake ask, and only while it does not listen. -/
theorem asks_cases (h : i.asks? op = some j) :
    (∃ resuming, op = .start resuming ∧ i.listening = false ∧
      j = i.readied false (i.startLine resuming)) ∨
    ∃ task ending, op = .finish task ending ∧ (i.log (ending.logLine task)).relieved.resumes ∧
      j = (i.log (ending.logLine task)).relieved.readied i.forced resumeLine := by
  cases op with
  | start resuming =>
    simp only [asks?, Option.ite_none_left_eq_some, Option.some.injEq] at h
    exact .inl ⟨resuming, rfl, eq_false_of_ne_true h.1, h.2.symm⟩
  | finish task ending =>
    simp only [asks?, Option.ite_none_right_eq_some, Option.some.injEq] at h
    exact .inr ⟨task, ending, rfl, h.1, h.2.symm⟩
  | _ => cases h

theorem asks_of_forced (h : i.forced = true) (hop : op.isStart = false) : i.asks? op = none := by
  cases hasks : i.asks? op with
  | none => rfl
  | some j =>
    rcases asks_cases hasks with ⟨resuming, rfl, -, -⟩ | ⟨task, ending, rfl, hr, -⟩
    · cases hop
    · simp only [resumes, Bool.and_eq_true, Bool.not_eq_true'] at hr
      exact absurd (h.symm.trans hr.1.2) (by decide)

theorem handle_of_asks (h : i.asks? op = some j) : i.handle op = j.connect.1.cleared := by
  rcases asks_cases h with ⟨resuming, rfl, hl, rfl⟩ | ⟨task, ending, rfl, hr, rfl⟩
  · rw [handle, perform, start_of_not_listening resuming hl]
  · exact release_of_resumes hr

theorem not_listening_of_asks (h : i.asks? op = some j) :
    i.listening = false ∧ j.listening = true ∧ j.feed = i.feed := by
  rcases asks_cases h with ⟨resuming, rfl, hl, rfl⟩ | ⟨task, ending, rfl, hr, rfl⟩
  · exact ⟨hl, rfl, rfl⟩
  · have hl := listening_eq_false_of_resumes hr
    exact ⟨hl, rfl, rfl⟩

theorem perform_start_of_quiet {resuming : Bool} (h : i.asks? (.start resuming) = none) :
    i.listening = true ∧ i.perform (.start resuming) = i.startAgain := by
  simp only [asks?, ite_eq_left_iff, reduceCtorEq, imp_false, not_not] at h
  rw [perform, start_of_listening resuming h]
  exact ⟨h, rfl⟩

theorem perform_finish_of_quiet {task : Nat} {ending : Ending}
    (h : i.asks? (.finish task ending) = none) :
    ¬ (i.log (ending.logLine task)).relieved.resumes ∧
      i.perform (.finish task ending) =
        (i.log (ending.logLine task)).relieved.note .changed := by
  simp only [asks?, ite_eq_right_iff, reduceCtorEq, imp_false] at h
  exact ⟨h, release_of_not_resumes h⟩

/-! ## How often the feed is asked -/

theorem listens_stop (i : Intake) (force : Bool) :
    (i.stop force).feed.listens = i.feed.listens := by
  unfold stop
  split <;> rfl

theorem listens_pause (i : Intake) : i.pause.feed.listens = i.feed.listens := by
  unfold pause
  split <;> rfl

theorem listens_deliver (i : Intake) (opportunity : Opportunity) :
    (i.deliver opportunity).feed.listens = i.feed.listens := by
  unfold deliver
  split
  · rfl
  split
  · exact listens_pause _
  unfold takeOn
  simp only
  split
  · exact listens_pause _
  · rfl

theorem listens_interrupt (i : Intake) (n : Interruption) :
    (i.interrupt n).feed.listens = i.feed.listens := by
  cases n with
  | stop force => exact listens_stop i force
  | start => rfl
  | deliver opportunity => exact listens_deliver i opportunity

theorem listens_connect (i : Intake) : i.connect.1.feed.listens = i.feed.listens + 1 := by
  have hattached : ∀ j : Intake, j.attached.feed.listens = j.feed.listens := by
    intro j
    unfold attached
    split <;> rfl
  cases hf : i.feed.nextFault with
  | some text =>
    rw [connect_of_refused hf]
    rfl
  | none =>
    rw [connect_of_accepted hf, hattached]
    unfold interrupted
    cases i.feed.interruption with
    | none => rfl
    | some n => exact listens_interrupt i.accepted n

theorem listens_perform_of_quiet (h : i.asks? op = none) :
    (i.perform op).feed.listens = i.feed.listens := by
  cases op with
  | start resuming =>
    rw [(perform_start_of_quiet h).2]
    rfl
  | stop force => exact listens_stop i force
  | deliver opportunity => exact listens_deliver i opportunity
  | finish task ending =>
    rw [(perform_finish_of_quiet h).2]
    rfl
  | prepare fault interruption => rfl

theorem admissions_perform_of_quiet (hn : i.notes = []) (hl : i.listening = false)
    (h : i.asks? op = none) : admissions (i.perform op).notes = [] := by
  cases op with
  | start resuming => simp [asks?, hl] at h
  | stop force =>
    obtain ⟨more, hgrows, hmore⟩ := grows_stop i force
    rw [perform, hgrows.notes, hn, List.nil_append, hmore]
  | deliver opportunity =>
    obtain ⟨more, hgrows, hmore⟩ := grows_deliver i opportunity
    rw [perform, hgrows.notes, hn, List.nil_append, hmore, hl]
    rfl
  | finish task ending =>
    rw [(perform_finish_of_quiet h).2]
    change admissions (i.notes ++ [_] ++ [_]) = []
    rw [hn]
    rfl
  | prepare fault interruption =>
    rw [perform, updateFeed, hn]
    rfl

/-! ## The invariant -/

/-- A listener is in place exactly if the intake listens. -/
def Matched (i : Intake) : Prop := i.feed.attached = i.listening

/-- `j` stands to the feed as `i` did, or it has let go of it. -/
def Loosens (i j : Intake) : Prop :=
  (j.feed.attached = i.feed.attached ∧ j.listening = i.listening) ∨
    (j.feed.attached = false ∧ j.listening = false)

theorem loosens_stop (i : Intake) (force : Bool) : i.Loosens (i.stop force) := by
  unfold stop
  cases hl : i.listening with
  | true => exact .inr ⟨rfl, rfl⟩
  | false => exact .inl ⟨rfl, hl.symm⟩

theorem loosens_pause (i : Intake) : i.Loosens i.pause := by
  unfold pause
  split
  · exact .inr ⟨rfl, rfl⟩
  · exact .inl ⟨rfl, rfl⟩

theorem loosens_deliver (i : Intake) (opportunity : Opportunity) :
    i.Loosens (i.deliver opportunity) := by
  unfold deliver
  split
  · exact .inl ⟨rfl, rfl⟩
  split
  · exact loosens_pause (i.log _)
  unfold takeOn
  simp only
  split
  · exact loosens_pause ((i.welcome opportunity).log _)
  · exact .inl ⟨rfl, rfl⟩

theorem loosens_perform (h : i.asks? op = none) : i.Loosens (i.perform op) := by
  cases op with
  | start resuming =>
    rw [(perform_start_of_quiet h).2]
    exact .inl ⟨rfl, rfl⟩
  | stop force => exact loosens_stop i force
  | deliver opportunity => exact loosens_deliver i opportunity
  | finish task ending =>
    rw [(perform_finish_of_quiet h).2]
    exact .inl ⟨rfl, rfl⟩
  | prepare fault interruption => exact .inl ⟨rfl, rfl⟩

theorem Loosens.matched (h : i.Loosens j) (hi : i.Matched) : j.Matched := by
  rcases h with ⟨hattached, hlistening⟩ | ⟨hattached, hlistening⟩
  · exact hattached.trans (hi.trans hlistening.symm)
  · exact hattached.trans hlistening.symm

theorem matched_attached (i : Intake) : i.attached.Matched := by
  unfold attached
  split
  · next hl => exact hl.symm
  · next hl => exact (eq_false_of_ne_true hl).symm

/-- Once the feed has answered, the intake listens with a listener in place or not at all. -/
theorem matched_connect (h : i.feed.attached = false) : i.connect.1.Matched := by
  cases hf : i.feed.nextFault with
  | some text =>
    rw [connect_of_refused hf]
    exact h
  | none =>
    rw [connect_of_accepted hf]
    exact matched_attached _

theorem matched_perform (op : Operation) (h : i.Matched) : (i.perform op).Matched := by
  cases hasks : i.asks? op with
  | some j =>
    obtain ⟨hl, -, hfeed⟩ := not_listening_of_asks hasks
    have hj : j.feed.attached = false := by rw [hfeed, h, hl]
    have hcleared : (i.perform op).cleared.Matched := by
      change (i.handle op).Matched
      rw [handle_of_asks hasks]
      exact matched_connect hj
    exact hcleared
  | none => exact (loosens_perform hasks).matched h

theorem matched_handleAll (ops : List Operation) (h : i.Matched) : (i.handleAll ops).Matched := by
  induction ops generalizing i with
  | nil => exact h
  | cons op ops ih => exact ih (matched_perform op h)

/-! ## Attempts that leave nothing behind -/

theorem connect_refused_detached {text : String} (h : i.feed.attached = false)
    (hf : i.feed.nextFault = some text) :
    i.connect.1.listening = false ∧ i.connect.1.feed.attached = false := by
  rw [connect_of_refused hf]
  exact ⟨rfl, h⟩

theorem connect_stopped_detached {force : Bool} (hf : i.feed.nextFault = none)
    (hn : i.feed.interruption = some (.stop force)) :
    i.connect.1.listening = false ∧ i.connect.1.feed.attached = false := by
  have hl : i.interrupted.listening = false := by
    simp only [interrupted, hn, Option.elim_some, interrupt, stop]
    split <;> rfl
  rw [connect_of_accepted hf, attached, if_neg (by simp [hl])]
  exact ⟨hl, rfl⟩

end LaunchDesk.Intake
