import LaunchDesk.Proofs.Run.Effects

/-!
# How the phases of a run follow each other

A run buys only after a look for something to buy, sells only with a position, and fails only after
a salvage. `leadsTo` is the whole graph.
-/

namespace LaunchDesk.Run

variable {plan : Plan} {now : Moment} {r : Run} {reply : Reply} {cancelled : Bool}

def Stance.isHolding : Stance → Bool
  | .holding _ _ => true
  | _ => false

/-- The phases that a phase may lead to with one reply. -/
def Phase.leadsTo (cancelled : Bool) : Phase → Phase → Bool
  | .fetching .looking, .buying _ => true
  | .fetching (.holding _ _), .selling _ _ _ _ => true
  | .fetching (.holding _ _), .crashed _ => true
  | .fetching (.holding _ _), .resting (.holding _ _) => true
  | .fetching (.holding _ _), _ => false
  | .fetching _, .resting (.holding _ _) => false
  | .fetching _, .resting _ => true
  | .fetching _, .recording _ _ => true
  | .buying _, .opening _ _ _ => true
  | .buying _, .salvaging _ _ => true
  | .buying _, .resting .looking => true
  | .salvaging _ _, .ended (.error _) => true
  | .opening _ _ _, .resting (.holding _ _) => true
  | .selling _ _ _ _, .closing _ _ _ _ _ => true
  | .selling _ _ _ _, .resting (.holding _ _) => true
  | .selling _ _ _ _, .crashed _ => true
  | .closing _ _ _ _ _, .recording _ _ => true
  | .closing _ _ _ _ _, .crashed _ => true
  | .recording _ _, .ended (.ok _) => true
  | .resting (.holding _ _), .fetching (.holding _ _) => true
  | .resting .looking, .fetching .looking => !cancelled
  | .resting (.leaving _), .fetching (.leaving _) => !cancelled
  | .resting (.holding _ _), .recording _ _ => false
  | .resting _, .recording _ _ => cancelled
  | _, _ => false

theorem endTick_leaving (plan : Plan) (now : Moment) (r : Run) (deadline : Nat) :
    (endTick plan now r (.leaving deadline)).1.phase = .resting (.leaving deadline) ∨
      ∃ outcome report, (endTick plan now r (.leaving deadline)).1.phase =
        .recording outcome report := by
  simp only [endTick]
  split
  · exact .inr ⟨_, _, rfl⟩
  · exact .inl rfl

theorem endTick_enters (plan : Plan) (now : Moment) (r : Run) (stance : Stance) :
    ∃ phase, (endTick plan now r stance).1 = r.enter phase := by
  simp only [endTick]
  split
  · split <;> exact ⟨_, rfl⟩
  · exact ⟨_, rfl⟩

theorem entries_endTick (plan : Plan) (now : Moment) (r : Run) (stance : Stance) :
    (endTick plan now r stance).1.entries = r.entries := by
  obtain ⟨phase, hphase⟩ := endTick_enters plan now r stance
  rw [hphase]
  rfl

theorem tick_endTick (plan : Plan) (now : Moment) (r : Run) (stance : Stance) :
    (endTick plan now r stance).1.tick = r.tick := by
  obtain ⟨phase, hphase⟩ := endTick_enters plan now r stance
  rw [hphase]
  rfl

theorem trySell_enters (plan : Plan) (now : Moment) (r : Run) (seen : Snapshot) (buy : Fill)
    (position : Position) (reason : String) :
    ∃ phase, (trySell plan now r seen buy position reason).1 =
      (r.record now (some seen) (.sellSignal reason)).enter phase := by
  unfold trySell
  split <;> exact ⟨_, rfl⟩

theorem entries_trySell (seen : Snapshot) (buy : Fill) (position : Position) (reason : String) :
    (trySell plan now r seen buy position reason).1.entries =
      (r.record now (some seen) (.sellSignal reason)).entries := by
  obtain ⟨phase, hphase⟩ := trySell_enters plan now r seen buy position reason
  rw [hphase]
  rfl

theorem tick_trySell (seen : Snapshot) (buy : Fill) (position : Position) (reason : String) :
    (trySell plan now r seen buy position reason).1.tick = r.tick := by
  obtain ⟨phase, hphase⟩ := trySell_enters plan now r seen buy position reason
  rw [hphase]
  rfl

theorem leadsTo_trySell (seen : Snapshot) (buy : Fill) (held position : Position)
    (reason : String) : Phase.leadsTo cancelled (.fetching (.holding buy held))
      (trySell plan now r seen buy position reason).1.phase = true := by
  unfold trySell
  split <;> rfl

theorem leadsTo_watch (seen : Snapshot) (buy : Fill) (position : Position) :
    Phase.leadsTo cancelled (.fetching (.holding buy position))
      (watch plan cancelled now r seen buy position).1.phase = true := by
  simp only [watch]
  split
  · rfl
  split
  · exact leadsTo_trySell ..
  split
  · exact leadsTo_trySell ..
  split
  · rfl
  · rfl

theorem leadsTo_endLeaving (deadline : Nat) {stance : Stance} (hstance : stance.isHolding = false) :
    Phase.leadsTo cancelled (.fetching stance)
      (endTick plan now r (.leaving deadline)).1.phase = true := by
  cases stance with
  | holding buy position => cases hstance
  | _ => rcases endTick_leaving plan now r deadline with h | ⟨outcome, report, h⟩ <;> rw [h] <;> rfl

theorem leadsTo_lookAt (seen : Snapshot) : Phase.leadsTo cancelled (.fetching .looking)
    (lookAt plan now r seen).1.phase = true := by
  simp only [lookAt]
  split
  · exact leadsTo_endLeaving _ rfl
  split <;> rfl

theorem leadsTo_seeing (seen : Snapshot) (stance : Stance) :
    Phase.leadsTo cancelled (.fetching stance)
      (seeing plan cancelled now r seen stance).1.phase = true := by
  cases stance with
  | looking => exact leadsTo_lookAt seen
  | leaving deadline => exact leadsTo_endLeaving deadline rfl
  | holding buy position => exact leadsTo_watch seen buy position

theorem leadsTo_snapshotFailed (stance : Stance) (fault : Fault) :
    Phase.leadsTo cancelled (.fetching stance)
      (snapshotFailed plan now r stance fault).1.phase = true := by
  cases stance with
  | looking => rfl
  | leaving deadline => exact leadsTo_endLeaving deadline rfl
  | holding buy position => rfl

theorem leadsTo_nextTick (stance : Stance) : Phase.leadsTo cancelled (.resting stance)
    (nextTick plan cancelled now r stance).1.phase = true := by
  cases stance <;> cases cancelled <;> rfl

/-- Every reply that a run waits for leads along the graph. -/
theorem leadsTo_resume (hreply : (r.request? plan).any (·.awaits reply) = true) :
    r.phase.leadsTo cancelled (resume plan cancelled now r reply).1.phase = true := by
  have hawaits := awaits_of_request hreply
  obtain ⟨t, startMs, entries, phase⟩ := r
  cases hawaits with
  | seen stance seen => exact leadsTo_seeing seen stance
  | unseen stance fault => exact leadsTo_snapshotFailed stance fault
  | unbought seen cause =>
    simp only [resume, buyFailed]
    split <;> rfl
  | sold seen buy position reason sell =>
    simp only [resume, sold]
    split <;> rfl
  | closed seen buy sell position closure answer =>
    simp only [resume, closed, after]
    split <;> rfl
  | rested stance => exact leadsTo_nextTick stance
  | _ => rfl

end LaunchDesk.Run
