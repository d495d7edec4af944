import LaunchDesk.Proofs.Run.Pace
import LaunchDesk.Proofs.Run.Transitions
import LaunchDesk.Proofs.Run.Words

/-!
# Cancelled runs

A run that is cancelled for good winds down. Without a position it leaves at its next tick. With one
it goes on, and whenever it sees the market it tries to sell, until a sell is executed. The only buy
that may still come is that of the tick in progress.
-/

namespace LaunchDesk.Run

variable {plan : Plan} {now : Moment} {r s : Run} {w more : List Effect} {history : List Entry}
variable {tick : Nat} {position : Position} {reply : Reply}

/-! ## What is seen -/

def Effect.isBuy : Effect → Bool
  | .call (.buy _) => true
  | _ => false

/-- A look at the market, or an order. -/
def Effect.isTrading : Effect → Bool
  | .call .snapshot => true
  | .call (.buy _) => true
  | .call (.sell _) => true
  | .call (.salvage _ _) => true
  | _ => false

/-! ## Leaving -/

/-- The outcome of a run that leaves because it is cancelled, at the tick after `tick`. -/
def stoppedOutcome (plan : Plan) (history : List Entry) (tick : Nat) (wall : Stamp) : Outcome :=
  .exited ⟨plan.botId, plan.opportunity.mint, .stopped,
    history ++ [⟨UInt64.ofNat (tick + 1), wall, none, .cancelled⟩]⟩

/-- How a cancelled run stands that has rested without a position after `tick`, and what was seen
since: it still rests, or its outcome is on the way to the store, or it has ended. -/
def Leaves (plan : Plan) (history : List Entry) (tick : Nat) (s : Run) (w : List Effect) : Prop :=
  match s.phase with
  | .resting stance => stance.isHolding = false ∧ s.history = history ∧ s.tick = tick ∧ w = []
  | .recording outcome report => ∃ wall, outcome = stoppedOutcome plan history tick wall ∧
      report.ticks = UInt64.ofNat (tick + 1) ∧ w = [.call (.insertOutcome outcome report)]
  | .ended result => ∃ wall report stored, result = .ok (stoppedOutcome plan history tick wall) ∧
      report.ticks = UInt64.ofNat (tick + 1) ∧
      w = exchange (.insertOutcome (stoppedOutcome plan history tick wall) report) (.stored stored)
  | _ => False

/-! ## Selling -/

/-- Why a cancelled run sells a position that it looks at: for the strategy's reason if the strategy
wants to sell, and else because it is stopped. -/
def Urges (plan : Plan) (position : Position) (seen : Snapshot) (reason : String) : Prop :=
  ∃ decision, plan.strategy.shouldSell position seen = .ok decision ∧
    reason = if decision.sell then decision.reasonOr "strategy" else "stopped"

/-- Whole ticks of a cancelled run that holds a position, and the position as it is after them. In
each tick the market is not seen, or there is one sell and it fails. -/
inductive Pressed (plan : Plan) (position : Position) : List Effect → Position → Prop
  | start : Pressed plan position [] position
  | blind {w after} (fault : Fault) : Pressed plan position w after →
      Pressed plan position (w ++ look (.error fault)) after
  | refused {w after} (seen : Snapshot) (reason : String) (cause : ExecutionFault) :
      Pressed plan position w after → Urges plan (after.observe seen.price) seen reason →
      Pressed plan position
        (w ++ look (.ok seen) ++
          exchange (.sell (makeSellOrder plan (after.observe seen.price) reason))
            (.order (.error cause)))
        (after.observe seen.price)

/-- The ticks up to a sell that is executed. After it there is neither a look nor an order. -/
def Sold (plan : Plan) (position : Position) (w : List Effect) : Prop :=
  ∃ u after seen reason sell rest, Pressed plan position u after ∧
    Urges plan (after.observe seen.price) seen reason ∧
    w = u ++ look (.ok seen) ++
      exchange (.sell (makeSellOrder plan (after.observe seen.price) reason)) (.order (.ok sell)) ++
      rest ∧
    ∀ e ∈ rest, e.isTrading = false

/-- What has been seen of a cancelled run since it held a position between two ticks. -/
def Presses (plan : Plan) (position : Position) (s : Run) (w : List Effect) : Prop :=
  match s.phase with
  | .resting (.holding _ after) => Pressed plan position w after
  | .fetching (.holding _ after) => ∃ u, Pressed plan position u after ∧ w = u ++ [.call .snapshot]
  | .selling seen _ observed reason => ∃ u after, Pressed plan position u after ∧
      observed = after.observe seen.price ∧ Urges plan observed seen reason ∧
      w = u ++ look (.ok seen) ++ [.call (.sell (makeSellOrder plan observed reason))]
  | .closing _ _ _ _ _ => Sold plan position w
  | .recording (.completed _) _ => Sold plan position w
  | .ended (.ok (.completed _)) => Sold plan position w
  | .crashed _ => True
  | _ => False

/-! ## Buying -/

/-- The tick in progress may still decide to buy. -/
def Phase.mayBuy : Phase → Bool
  | .fetching .looking => true
  | _ => false

def Phase.isBuying : Phase → Bool
  | .buying _ => true
  | _ => false

theorem isBuying_of_request {order : BuyOrder} (h : r.request? plan = some (.buy order)) :
    r.phase.isBuying = true := by
  unfold request? at h
  cases hphase : r.phase with
  | buying seen => rfl
  | _ => simp [hphase] at h

theorem calls_effects (plan : Plan) (p : Progress) {isCall : Effect → Bool}
    (hcall : ∀ event, isCall (.publish event) = false) :
    (effects plan p).countP isCall =
      ((p.1.request? plan).elim [] Effect.ofRequest).countP isCall := by
  have hnotices : (p.2.flatMap Notice.effects).countP isCall = 0 := by
    refine List.countP_eq_zero.mpr fun e he => ?_
    obtain ⟨notice, -, hmem⟩ := List.mem_flatMap.mp he
    cases notice with
    | log line => cases hmem
    | publish event =>
      obtain rfl := List.mem_singleton.mp hmem
      exact Bool.eq_false_iff.mp (hcall event)
  rw [effects, List.countP_append, hnotices, Nat.zero_add]

theorem not_isCall_of_mem_effects {p : Progress} {isCall : Effect → Bool}
    (hcall : ∀ event, isCall (.publish event) = false)
    (hnext : ((p.1.request? plan).elim [] Effect.ofRequest).countP isCall = 0) :
    ∀ e ∈ effects plan p, isCall e = false := by
  have hnone := calls_effects plan p hcall
  rw [hnext, List.countP_eq_zero] at hnone
  exact fun e he => eq_false_of_ne_true (hnone e he)

theorem buys_effects (plan : Plan) (p : Progress) :
    (effects plan p).countP Effect.isBuy = p.1.phase.isBuying.toNat := by
  rw [calls_effects plan p fun _ => rfl]
  unfold request?
  cases p.1.phase <;> rfl

theorem buys_ofReply (reply : Reply) : (Effect.ofReply reply).countP Effect.isBuy = 0 := by
  cases reply <;> rfl

/-- A look that is under way may lead to one buy, and then it is over. -/
theorem budget_resume (now : Moment)
    (hreply : (r.request? plan).any (·.awaits reply) = true) :
    (resume plan true now r reply).1.phase.isBuying.toNat +
      (resume plan true now r reply).1.phase.mayBuy.toNat ≤ r.phase.mayBuy.toNat := by
  have hleads : r.phase.leadsTo true (resume plan true now r reply).1.phase = true :=
    leadsTo_resume hreply
  -- The two phases decide: only a look leads to a buy, and no rest leads to a look any more.
  revert hleads
  generalize (resume plan true now r reply).1.phase = next
  generalize r.phase = phase
  intro hleads
  cases next with
  | buying seen =>
    cases phase with
    | fetching stance =>
      cases stance with
      | looking => exact Nat.le_refl _
      | _ => cases hleads
    | resting stance => cases stance <;> cases hleads
    | _ => cases hleads
  | fetching stance =>
    cases stance with
    | looking =>
      cases phase with
      | resting stance => cases stance <;> cases hleads
      | fetching stance => cases stance <;> cases hleads
      | _ => cases hleads
    | _ => exact Nat.zero_le _
  | _ => exact Nat.zero_le _

/-- A run that was cancelled in this tick buys in no later one. -/
def BuysBy (tick : Nat) (s : Run) : Prop :=
  s.phase.isBuying = true ∨ s.phase.mayBuy = true → s.tick = tick

theorem BuysBy.resume (h : BuysBy tick s) (now : Moment) (reply : Reply) :
    BuysBy tick (Run.resume plan true now s reply).1 := by
  intro hbuys
  cases hreply : (s.request? plan).any (·.awaits reply) with
  | false =>
    rw [resume_unawaited hreply] at hbuys ⊢
    exact h hbuys
  | true =>
    -- It can only be buying after a look, and a look takes place within one tick.
    have hbudget : (Run.resume plan true now s reply).1.phase.isBuying.toNat +
        (Run.resume plan true now s reply).1.phase.mayBuy.toNat ≤ s.phase.mayBuy.toNat :=
      budget_resume now hreply
    have hlooks : s.phase.mayBuy = true := by
      by_contra hno
      rw [eq_false_of_ne_true hno] at hbudget
      rcases hbuys with hbuys | hbuys <;> simp [hbuys] at hbudget
    have hworks : s.ending? = none := by
      unfold ending?
      split
      · next stance hphase => simp [hphase, Phase.mayBuy] at hlooks
      · rfl
    rw [tick_resume true reply hworks]
    exact h (.inr hlooks)

/-! ## One turn -/

/-- What has been seen when a run has gone on with a reply. -/
def seenAfter (plan : Plan) (now : Moment) (r : Run) (reply : Reply) (w : List Effect) :
    List Effect :=
  w ++ Effect.ofReply reply ++ effects plan (resume plan true now r reply)

theorem departs (plan : Plan) (now : Moment) (r : Run) {stance : Stance}
    (hstance : stance.isHolding = false) :
    ∃ report, report.ticks = UInt64.ofNat (r.tick + 1) ∧
      (nextTick plan true now r stance).1.phase =
        .recording (stoppedOutcome plan r.history r.tick now.wall) report ∧
      effects plan (nextTick plan true now r stance) =
        [.call (.insertOutcome (stoppedOutcome plan r.history r.tick now.wall) report)] := by
  have houtcome : stoppedOutcome plan r.history r.tick now.wall =
      .exited ⟨plan.botId, plan.opportunity.mint, .stopped,
        (record { r with tick := r.tick + 1 } now none .cancelled).history⟩ := by
    simp [stoppedOutcome, history, record]
  rw [houtcome]
  cases stance with
  | holding buy position => cases hstance
  | _ => exact ⟨_, rfl, rfl, rfl⟩

theorem leaves_resume (h : Leaves plan history tick r w)
    (hreply : (r.request? plan).any (·.awaits reply) = true) :
    Leaves plan history tick (resume plan true now r reply).1
      (seenAfter plan now r reply w) := by
  have hawaits := awaits_of_request hreply
  obtain ⟨t, startMs, entries, phase⟩ := r
  cases hawaits with
  | rested stance =>
    obtain ⟨hstance, rfl, rfl, rfl⟩ := h
    let r : Run := ⟨t, startMs, entries, .resting stance⟩
    let next := nextTick plan true now r stance
    obtain ⟨report, hticks, hphase, heffects⟩ := departs plan now r hstance
    change Leaves plan _ _ next.1 (effects plan next)
    rw [Leaves, hphase, heffects]
    exact ⟨now.wall, rfl, hticks, rfl⟩
  | recorded outcome report answer =>
    obtain ⟨wall, rfl, hticks, rfl⟩ := h
    refine ⟨wall, report, answer, rfl, hticks, ?_⟩
    cases answer <;> rfl
  | _ => exact h.elim

/-- A cancelled run that goes on so after `w` was seen presses for a sell. -/
def PressesOn (plan : Plan) (position : Position) (w : List Effect) (p : Progress) : Prop :=
  Presses plan position p.1 (w ++ effects plan p)

theorem pressesOn_after {p : Progress} {notices : List Notice}
    (h : PressesOn plan position (w ++ notices.flatMap Notice.effects) p) :
    PressesOn plan position w (after notices p) := by
  unfold PressesOn
  rw [effects_after, ← List.append_assoc]
  exact h

theorem pressesOn_after_log {p : Progress} {line : Log.Line} (h : PressesOn plan position w p) :
    PressesOn plan position w (after [.log line] p) := by
  apply pressesOn_after
  rw [show [Notice.log line].flatMap Notice.effects = [] from rfl, List.append_nil]
  exact h

theorem pressesOn_rest {buy : Fill} {observed : Position} (h : Pressed plan position w observed) :
    PressesOn plan position w (endTick plan now r (.holding buy observed)) := by
  have he : effects plan (endTick plan now r (.holding buy observed)) = [] := rfl
  rw [PressesOn, he, List.append_nil]
  exact h

theorem pressesOn_trySell {u : List Effect} {buy : Fill} {before : Position} {seen : Snapshot}
    {reason : String} (h : Pressed plan position u before)
    (hurges : Urges plan (before.observe seen.price) seen reason) :
    PressesOn plan position (u ++ look (.ok seen))
      (trySell plan now r seen buy (before.observe seen.price) reason) := by
  unfold trySell
  cases (before.observe seen.price).changePercent seen.price with
  | error fault => exact trivial
  | ok change => exact ⟨u, before, h, rfl, hurges, rfl⟩

theorem pressesOn_watch {u : List Effect} {before : Position} (buy : Fill) (seen : Snapshot)
    (h : Pressed plan position u before) :
    PressesOn plan position (u ++ look (.ok seen)) (watch plan true now r seen buy before) := by
  unfold watch
  simp only
  cases hdecision : plan.strategy.shouldSell (before.observe seen.price) seen with
  | error fault => exact trivial
  | ok decision =>
    -- The strategy is asked first; the cancel gives the reason only where it does not want to sell.
    simp only [if_true]
    split
    · next hsell => exact pressesOn_trySell h ⟨decision, hdecision, (if_pos hsell).symm⟩
    · next hsell => exact pressesOn_trySell h ⟨decision, hdecision, (if_neg hsell).symm⟩

theorem Sold.append (h : Sold plan position w) (hmore : ∀ e ∈ more, e.isTrading = false) :
    Sold plan position (w ++ more) := by
  obtain ⟨u, after, seen, reason, sell, rest, hu, hurges, rfl, hrest⟩ := h
  exact ⟨u, after, seen, reason, sell, rest ++ more, hu, hurges, by simp,
    List.forall_mem_append.mpr ⟨hrest, hmore⟩⟩

theorem sold_closed (now : Moment) (r : Run) (seen : Snapshot) (buy sell : Fill)
    (closure : Closure) (answer : Except Fault Unit) (h : Sold plan position w) :
    Presses plan position (closed plan now r seen buy sell closure answer).1
      (w ++ (Effect.ofReply (.stored answer) ++
        effects plan (closed plan now r seen buy sell closure answer))) := by
  have hstored : ∀ e ∈ Effect.ofReply (.stored answer), e.isTrading = false :=
    List.forall_mem_singleton.mpr rfl
  simp only [closed, effects_after, List.flatMap_append, storeWarning_effects]
  -- The sell was executed before; what comes here only has to be free of further trading.
  split
  · exact trivial
  · next outcome hfills =>
    obtain ⟨trade, rfl, -⟩ := ofFills_eq_ok hfills
    refine h.append (List.forall_mem_append.mpr ⟨hstored, ?_⟩)
    rintro e he
    simp [effects, request?, recordOutcome, enter, Notice.effects, info, Effect.ofRequest] at he
    rcases he with rfl | rfl | rfl <;> rfl

theorem presses_resume (h : Presses plan position r w)
    (hreply : (r.request? plan).any (·.awaits reply) = true) :
    Presses plan position (resume plan true now r reply).1 (seenAfter plan now r reply w) := by
  have hawaits := awaits_of_request hreply
  obtain ⟨t, startMs, entries, phase⟩ := r
  cases hawaits with
  | rested stance =>
    cases stance with
    | holding buy after => exact ⟨w, h, by rw [seenAfter, Effect.ofReply, List.append_nil]; rfl⟩
    | _ => exact h.elim
  | seen stance seen =>
    cases stance with
    | holding buy before =>
      obtain ⟨u, hu, rfl⟩ := h
      simp only [seenAfter, Effect.ofReply, append_exchange]
      exact pressesOn_watch buy seen hu
    | _ => exact h.elim
  | unseen stance fault =>
    cases stance with
    | holding buy before =>
      obtain ⟨u, hu, rfl⟩ := h
      simp only [seenAfter, Effect.ofReply, append_exchange]
      exact pressesOn_after_log (pressesOn_rest (.blind fault hu))
    | _ => exact h.elim
  | unsold seen buy observed reason cause =>
    obtain ⟨u, after, hu, rfl, hurges, rfl⟩ := h
    simp only [seenAfter, Effect.ofReply, append_exchange]
    exact pressesOn_after_log (pressesOn_rest (.refused seen reason cause hu hurges))
  | sold seen buy observed reason sell =>
    obtain ⟨u, after, hu, rfl, hurges, rfl⟩ := h
    simp only [seenAfter, Effect.ofReply, append_exchange, resume, sold]
    -- If the gain overflows after the sell, the run crashes, and nothing is claimed of it.
    cases closureOf (after.observe seen.price) sell reason with
    | error fault => exact trivial
    | ok closure =>
      exact ⟨u, after, seen, reason, sell, [.call (.closePosition _ closure)], hu, hurges, rfl,
        List.forall_mem_singleton.mpr rfl⟩
  | closed seen buy sell position closure answer =>
    rw [seenAfter, List.append_assoc]
    exact sold_closed now _ seen buy sell closure answer h
  | recorded outcome report answer =>
    cases outcome with
    | exited departure => exact h.elim
    | completed trip =>
      have hquiet : effects plan (resume plan true now
          ⟨t, startMs, entries, .recording (.completed trip) report⟩ (.stored answer)) = [] :=
        (List.append_nil _).trans (storeWarning_effects _ answer)
      rw [seenAfter, hquiet, List.append_nil]
      exact h.append (List.forall_mem_singleton.mpr rfl)
  | _ => exact h.elim

/-! ## All turns -/

/-- A run that was cancelled in the state `r` has come to `s`, and `more` was seen on the way. There
was at most one buy, and only in the tick that was in progress. -/
structure WindsDown (plan : Plan) (r : Run) (more : List Effect) (s : Run) : Prop where
  buys : more.countP Effect.isBuy + s.phase.mayBuy.toNat ≤ r.phase.mayBuy.toNat
  leaves : ∀ stance, r.phase = .resting stance → stance.isHolding = false →
    Leaves plan r.history r.tick s more
  presses : ∀ buy position, r.phase = .resting (.holding buy position) →
    Presses plan position s more
  seizes : ∀ buy position, r.phase = .fetching (.holding buy position) →
    Presses plan position s (.call .snapshot :: more)

theorem WindsDown.refl (plan : Plan) (r : Run) : WindsDown plan r [] r where
  buys := Nat.le_of_eq (Nat.zero_add _)
  leaves stance hphase hstance := by
    rw [Leaves, hphase]
    exact ⟨hstance, rfl, rfl, rfl⟩
  presses buy position hphase := by
    rw [Presses, hphase]
    exact .start
  seizes buy position hphase := by
    rw [Presses, hphase]
    exact ⟨[], .start, rfl⟩

theorem buys_seenAfter (now : Moment) (s : Run) (reply : Reply) (more : List Effect) :
    (seenAfter plan now s reply more).countP Effect.isBuy =
      more.countP Effect.isBuy + (resume plan true now s reply).1.phase.isBuying.toNat := by
  rw [seenAfter, List.countP_append, List.countP_append, buys_ofReply, buys_effects, Nat.add_zero]

theorem WindsDown.resume (h : WindsDown plan r more s) (now : Moment)
    (hreply : (s.request? plan).any (·.awaits reply) = true) :
    WindsDown plan r (seenAfter plan now s reply more) (Run.resume plan true now s reply).1 where
  buys := by
    have hbudget := budget_resume now hreply
    have hsofar := h.buys
    rw [buys_seenAfter]
    omega
  leaves stance hphase hstance := leaves_resume (h.leaves stance hphase hstance) hreply
  presses buy position hphase := presses_resume (h.presses buy position hphase) hreply
  seizes buy position hphase := presses_resume (h.seizes buy position hphase) hreply

/-- A run that starts on a cancelled machine is like one that rests and has not had a tick. -/
theorem windsDown_start (plan : Plan) (now : Moment) :
    WindsDown plan { startMs := now.ms, phase := .resting .looking }
      (effects plan (start plan true now)) (start plan true now).1 := by
  let r : Run := { startMs := now.ms, phase := .resting .looking }
  have hreply : (r.request? plan).any (·.awaits .rested) = true := rfl
  exact (WindsDown.refl plan r).resume now hreply

theorem announced_leaving (h : Leaves plan history tick s w) (now : Moment) (reply : Reply) :
    announced (Run.resume plan true now s reply).2 = [] := by
  rcases resume_cases plan true now s reply with hawaits | hsame
  · obtain ⟨t, startMs, entries, phase⟩ := s
    cases hawaits with
    | rested stance => exact announced_nextTick true
    | recorded outcome report answer => exact announced_storeWarning _ answer
    | _ => exact h.elim
  · rw [hsame]
    rfl

theorem WindsDown.crash (h : WindsDown plan r more s) (now : Moment)
    (fault : Decimal.Fault) (htells : announced (Run.resume plan true now s reply).2 ≠ []) :
    let next := Run.resume plan true now s reply
    WindsDown plan r (more ++ Effect.ofReply reply ++ effects plan (next.1.crash fault, next.2))
      (next.1.crash fault) where
  buys := by
    have hsofar := h.buys
    rw [List.countP_append, List.countP_append, buys_ofReply, buys_effects]
    exact Nat.le_trans (Nat.le_add_right _ _) hsofar
  leaves stance hphase hstance :=
    absurd (announced_leaving (h.leaves stance hphase hstance) now reply) htells
  presses _ _ _ := trivial
  seizes _ _ _ := trivial

theorem ends_stopped {wall : Stamp} {report : Report} (cancelled : Bool) (now : Moment)
    (answer : Except Fault Unit)
    (h : s.phase = .recording (stoppedOutcome plan history tick wall) report) :
    (Run.resume plan cancelled now s (.stored answer)).1.phase =
      .ended (.ok (stoppedOutcome plan history tick wall)) := by
  simp only [Run.resume, h]
  rfl

end LaunchDesk.Run
