import LaunchDesk.Proofs.Run.Effects

/-!
# What a run has published

A run publishes its buy, later on its sell and the round trip of the two, and nothing else. So the
phase that it is in says what it has published so far, in whatever way it came there.
-/

namespace LaunchDesk.Run

variable {plan : Plan} {now : Moment} {r : Run} {stance : Stance} {p : Progress}
variable {bot : BotId} {before : List Event}

/-- A round trip that begins with a buy, ends with a sell and results in their difference. -/
structure IsTrip (trip : RoundTrip) : Prop where
  buy : trip.buy.side = .buy
  sell : trip.sell.side = .sell
  pnl : trip.sell.netAmount.sub trip.buy.netAmount = .ok trip.realizedPnl

/-! ## Notices -/

def Notice.event? : Notice → Option Event
  | .log _ => none
  | .publish event => some event

def announced (notices : List Notice) : List Event := notices.filterMap Notice.event?

theorem announced_append (a b : List Notice) : announced (a ++ b) = announced a ++ announced b :=
  List.filterMap_append

theorem announced_storeWarning (message : String) (stored : Except Fault Unit) :
    announced (storeWarning plan message stored) = [] := by
  cases stored with
  | ok _ => rfl
  | error _ => rfl

/-! ## Phases -/

def tripEvents (bot : BotId) (trip : RoundTrip) : List Event :=
  [.trade bot trip.buy, .trade bot trip.sell, .cycle bot (.completed trip)]

def Stance.published (bot : BotId) : Stance → List Event
  | .holding buy _ => [.trade bot buy]
  | _ => []

/-- What a run has published when it is in a phase. -/
def Phase.published (bot : BotId) : Phase → List Event
  | .fetching stance => stance.published bot
  | .resting stance => stance.published bot
  | .selling _ buy _ _ => [.trade bot buy]
  | .closing _ buy _ _ _ => [.trade bot buy]
  | .recording (.completed trip) _ => tripEvents bot trip
  | .ended (.ok (.completed trip)) => tripEvents bot trip
  | _ => []

def Stance.Sound : Stance → Prop
  | .holding buy _ => buy.side = .buy
  | _ => True

/-- Each fill in a phase is on its side. -/
def Phase.Sound : Phase → Prop
  | .fetching stance => stance.Sound
  | .resting stance => stance.Sound
  | .opening _ buy _ => buy.side = .buy
  | .selling _ buy _ _ => buy.side = .buy
  | .closing _ buy sell _ _ => buy.side = .buy ∧ sell.side = .sell
  | .recording (.completed trip) _ => IsTrip trip
  | .ended (.ok (.completed trip)) => IsTrip trip
  | _ => True

/-- A reply brings a buy for a buy and a sell for a sell. -/
def Phase.takes : Phase → Reply → Bool
  | .buying _, .order (.ok fill) => fill.side = .buy
  | .selling _ _ _ _, .order (.ok fill) => fill.side = .sell
  | _, _ => true

def isCrashed (r : Run) : Bool :=
  match r.phase with
  | .crashed _ => true
  | _ => false

theorem isOver_iff (plan : Plan) (r : Run) : r.isOver = true ↔ r.request? plan = none := by
  unfold isOver request?
  cases r.phase <;> simp

theorem isOver_of_request {request : Request} (h : r.request? plan = some request) :
    r.isOver = false := by
  refine Bool.eq_false_iff.mpr fun hover => ?_
  rw [(isOver_iff plan r).mp hover] at h
  cases h

/-! ## Steps -/

/-- A run that had published `before` goes on and publishes what its new phase says, unless it
crashes. -/
def Tells (bot : BotId) (before : List Event) (p : Progress) : Prop :=
  p.1.isCrashed = false →
    p.1.phase.Sound ∧ p.1.phase.published bot = before ++ announced p.2

theorem tells_after {notices : List Notice} (h : Tells bot (before ++ announced notices) p) :
    Tells bot before (after notices p) := by
  intro hcrash
  obtain ⟨hsound, hpublished⟩ := h hcrash
  refine ⟨hsound, hpublished.trans ?_⟩
  rw [after, announced_append, List.append_assoc]

theorem tells_after_quiet {notices : List Notice} (hn : announced notices = [])
    (h : Tells bot before p) : Tells bot before (after notices p) := by
  apply tells_after
  rwa [hn, List.append_nil]

theorem tells_of (hsound : p.1.phase.Sound)
    (h : p.1.phase.published bot = before ++ announced p.2) : Tells bot before p :=
  fun _ => ⟨hsound, h⟩

theorem tells_crashed (h : p.1.isCrashed = true) : Tells bot before p := by
  intro hcrash
  rw [h] at hcrash
  cases hcrash

theorem tells_depart (reason : ExitReason) : Tells bot [] (depart plan now r reason) :=
  tells_of trivial rfl

theorem tells_endTick (stance : Stance) (h : stance.Sound) :
    Tells bot (stance.published bot) (endTick plan now r stance) := by
  have hrest : Tells bot (stance.published bot) (r.enter (.resting stance), []) :=
    tells_of h (List.append_nil _).symm
  cases stance with
  | looking => exact hrest
  | holding buy position => exact hrest
  | leaving deadline =>
    simp only [endTick]
    split
    · exact tells_after_quiet rfl (tells_depart .strategyExit)
    · exact hrest

theorem tells_nextTick (stance : Stance) (cancelled : Bool) (h : stance.Sound) :
    Tells bot (stance.published bot) (nextTick plan cancelled now r stance) := by
  have hfetch : ∀ r : Run, Tells bot (stance.published bot) (r.enter (.fetching stance), []) :=
    fun _ => tells_of h (List.append_nil _).symm
  unfold nextTick
  cases stance with
  | holding buy position => exact hfetch _
  | looking =>
    cases cancelled with
    | true => exact tells_after_quiet rfl (tells_depart .stopped)
    | false => exact hfetch _
  | leaving deadline =>
    cases cancelled with
    | true => exact tells_after_quiet rfl (tells_depart .stopped)
    | false => exact hfetch _

theorem tells_lookAt (seen : Snapshot) : Tells bot [] (lookAt plan now r seen) := by
  unfold lookAt
  split
  · exact tells_after_quiet rfl (tells_endTick _ trivial)
  · split
    · exact tells_of trivial rfl
    · exact tells_endTick .looking trivial

theorem tells_trySell {buy : Fill} (h : buy.side = .buy) (seen : Snapshot) (position : Position)
    (reason : String) :
    Tells bot [.trade bot buy] (trySell plan now r seen buy position reason) := by
  unfold trySell
  split
  · exact tells_crashed rfl
  · exact tells_of h rfl

theorem tells_watch {buy : Fill} (h : buy.side = .buy) (cancelled : Bool) (seen : Snapshot)
    (position : Position) :
    Tells bot [.trade bot buy] (watch plan cancelled now r seen buy position) := by
  have hend : ∀ (r : Run) (position : Position),
      Tells bot [.trade bot buy] (endTick plan now r (.holding buy position)) :=
    fun _ position => tells_endTick (.holding buy position) h
  simp only [watch]
  cases plan.strategy.shouldSell (position.observe seen.price) seen with
  | error fault => exact tells_crashed rfl
  | ok decision =>
    simp only
    split
    · exact tells_trySell h seen _ _
    · split
      · exact tells_trySell h seen _ _
      · split
        · exact tells_after_quiet rfl (hend _ _)
        · exact hend _ _

theorem tells_seeing (cancelled : Bool) (seen : Snapshot) (h : stance.Sound) :
    Tells bot (stance.published bot) (seeing plan cancelled now r seen stance) := by
  cases stance with
  | looking => exact tells_lookAt seen
  | leaving deadline => exact tells_endTick (.leaving deadline) trivial
  | holding buy position => exact tells_watch h cancelled seen position

theorem tells_buyFailed (seen : Snapshot) (cause : ExecutionFault) :
    Tells bot [] (buyFailed plan now r seen cause) := by
  unfold buyFailed
  split
  · exact tells_of trivial rfl
  · exact tells_after_quiet rfl (tells_endTick .looking trivial)

theorem tells_opened {buy : Fill} (h : buy.side = .buy) (seen : Snapshot) (position : Position)
    (stored : Except Fault Unit) :
    Tells plan.botId [] (opened plan now r seen buy position stored) := by
  apply tells_after
  rw [announced_append, announced_storeWarning]
  exact tells_endTick (.holding buy position) h

theorem tells_sold {buy sell : Fill} (hbuy : buy.side = .buy) (hsell : sell.side = .sell)
    (seen : Snapshot) (position : Position) (reason : String) :
    Tells bot [.trade bot buy] (sold r seen buy sell position reason) := by
  unfold sold
  split
  · exact tells_crashed rfl
  · exact tells_of ⟨hbuy, hsell⟩ rfl

theorem ofFills_eq_ok {buy sell : Fill} {reason : String} {history : List Entry}
    {outcome : Outcome} (h : Outcome.ofFills bot buy sell reason history = .ok outcome) :
    ∃ trade : RoundTrip, outcome = .completed trade ∧ trade.buy = buy ∧ trade.sell = sell ∧
      sell.netAmount.sub buy.netAmount = .ok trade.realizedPnl := by
  unfold Outcome.ofFills at h
  cases hpnl : sell.netAmount.sub buy.netAmount with
  | error fault =>
    rw [hpnl] at h
    cases h
  | ok pnl =>
    rw [hpnl] at h
    cases h
    exact ⟨_, rfl, rfl, rfl, rfl⟩

theorem tells_closed {buy sell : Fill} (hbuy : buy.side = .buy) (hsell : sell.side = .sell)
    (seen : Snapshot) (closure : Closure) (stored : Except Fault Unit) :
    Tells plan.botId [.trade plan.botId buy]
      (closed plan now r seen buy sell closure stored) := by
  apply tells_after
  rw [announced_append, announced_storeWarning]
  split
  · exact tells_crashed rfl
  · next outcome hfills =>
    obtain ⟨trip, rfl, rfl, rfl, hpnl⟩ := ofFills_eq_ok hfills
    have htrip : IsTrip trip := ⟨hbuy, hsell, hpnl⟩
    exact tells_of htrip rfl

theorem tells_recorded {outcome : Outcome} {report : Report}
    (h : (Phase.recording outcome report).Sound) (stored : Except Fault Unit) :
    Tells bot ((Phase.recording outcome report).published bot)
      (r.enter (.ended (.ok outcome)),
        storeWarning plan "Failed to persist trade outcome" stored) := by
  have hsame : (Phase.ended (.ok outcome)).published bot =
      (Phase.recording outcome report).published bot := by
    cases outcome with
    | completed trip => rfl
    | exited departure => rfl
  refine tells_of ?_ ?_
  · cases outcome with
    | completed trip => exact h
    | exited departure => exact trivial
  · rw [announced_storeWarning, List.append_nil]
    exact hsame

/-- Whatever reply a run gets, it publishes what its new phase says. -/
theorem tells_resume {reply : Reply} (cancelled : Bool) (hsound : r.phase.Sound)
    (htakes : r.phase.takes reply) :
    Tells plan.botId (r.phase.published plan.botId) (resume plan cancelled now r reply) := by
  rcases resume_cases plan cancelled now r reply with hawaits | hsame
  · obtain ⟨tick, startMs, entries, phase⟩ := r
    cases hawaits with
    | seen stance seen => exact tells_seeing cancelled seen hsound
    | unseen stance fault => exact tells_after_quiet rfl (tells_endTick stance hsound)
    | bought seen buy =>
      have hbuy : buy.side = .buy := of_decide_eq_true htakes
      exact tells_of hbuy rfl
    | unbought seen cause => exact tells_buyFailed seen cause
    | salvaged kind cause sell => exact tells_of trivial rfl
    | unsalvaged kind cause fault => exact tells_of trivial rfl
    | expired kind cause => exact tells_of trivial rfl
    | opened seen buy position answer => exact tells_opened hsound seen position answer
    | sold seen buy position reason sell =>
      exact tells_sold hsound (of_decide_eq_true htakes) seen position reason
    | unsold seen buy position reason cause =>
      exact tells_after_quiet rfl (tells_endTick (.holding buy position) hsound)
    | closed seen buy sell position closure answer =>
      exact tells_closed hsound.1 hsound.2 seen closure answer
    | recorded outcome report answer => exact tells_recorded hsound answer
    | rested stance => exact tells_nextTick stance cancelled hsound
  · rw [hsame]
    exact tells_of hsound (List.append_nil _).symm

theorem start_spec (plan : Plan) (cancelled : Bool) (now : Moment) (bot : BotId) :
    announced (start plan cancelled now).2 = [] ∧
      (start plan cancelled now).1.isCrashed = false ∧
      (start plan cancelled now).1.phase.Sound ∧
      (start plan cancelled now).1.phase.published bot = [] := by
  cases cancelled with
  | true => exact ⟨rfl, rfl, trivial, rfl⟩
  | false => exact ⟨rfl, rfl, trivial, rfl⟩

/-! ## Publishing at once -/

/-- What a run publishes at once is at most one trade, with the end of the run behind it. -/
def Terse (bot : BotId) (events : List Event) : Prop :=
  events = [] ∨ ∃ fill, events = [.trade bot fill] ∨
    ∃ outcome, events = [.trade bot fill, .cycle bot outcome]

theorem announced_after (notices : List Notice) (p : Progress) :
    announced (after notices p).2 = announced notices ++ announced p.2 := announced_append _ _

theorem announced_endTick : announced (endTick plan now r stance).2 = [] := by
  unfold endTick
  cases stance with
  | leaving deadline =>
    simp only
    split <;> rfl
  | _ => rfl

theorem announced_nextTick (cancelled : Bool) :
    announced (nextTick plan cancelled now r stance).2 = [] := by
  unfold nextTick
  cases stance <;> cases cancelled <;> rfl

theorem announced_lookAt (seen : Snapshot) : announced (lookAt plan now r seen).2 = [] := by
  unfold lookAt
  split
  · rw [announced_after, announced_endTick]
    rfl
  · split
    · rfl
    · exact announced_endTick

theorem announced_trySell (seen : Snapshot) (buy : Fill) (position : Position) (reason : String) :
    announced (trySell plan now r seen buy position reason).2 = [] := by
  unfold trySell
  split <;> rfl

theorem announced_watch (cancelled : Bool) (seen : Snapshot) (buy : Fill) (position : Position) :
    announced (watch plan cancelled now r seen buy position).2 = [] := by
  simp only [watch]
  split
  · rfl
  split
  · exact announced_trySell ..
  split
  · exact announced_trySell ..
  split
  · rw [announced_after, announced_endTick]
    rfl
  · exact announced_endTick

theorem announced_seeing (cancelled : Bool) (seen : Snapshot) :
    announced (seeing plan cancelled now r seen stance).2 = [] := by
  cases stance with
  | looking => exact announced_lookAt seen
  | leaving deadline => exact announced_endTick
  | holding buy position => exact announced_watch cancelled seen buy position

theorem announced_buyFailed (seen : Snapshot) (cause : ExecutionFault) :
    announced (buyFailed plan now r seen cause).2 = [] := by
  unfold buyFailed
  split
  · rfl
  · rw [announced_after, announced_endTick]
    rfl

theorem announced_opened (seen : Snapshot) (buy : Fill) (position : Position)
    (stored : Except Fault Unit) :
    announced (opened plan now r seen buy position stored).2 = [.trade plan.botId buy] := by
  rw [opened, announced_after, announced_append, announced_storeWarning, announced_endTick]
  rfl

theorem terse_closed (seen : Snapshot) (buy sell : Fill) (closure : Closure)
    (stored : Except Fault Unit) :
    Terse plan.botId (announced (closed plan now r seen buy sell closure stored).2) := by
  rw [closed, announced_after, announced_append, announced_storeWarning]
  split
  · exact .inr ⟨sell, .inl rfl⟩
  · exact .inr ⟨sell, .inr ⟨_, rfl⟩⟩

theorem terse_resume (plan : Plan) (cancelled : Bool) (now : Moment) (r : Run) (reply : Reply) :
    Terse plan.botId (announced (resume plan cancelled now r reply).2) := by
  have hquiet : ∀ notices, announced notices = [] → Terse plan.botId (announced notices) :=
    fun _ h => .inl h
  unfold resume
  split
  · exact hquiet _ (announced_seeing ..)
  · refine hquiet _ ?_
    rw [snapshotFailed, announced_after, announced_endTick]
    rfl
  · exact hquiet _ rfl
  · exact hquiet _ (announced_buyFailed ..)
  · exact hquiet _ rfl
  · exact hquiet _ rfl
  · exact hquiet _ rfl
  · exact .inr ⟨_, .inl (announced_opened ..)⟩
  · refine hquiet _ ?_
    unfold sold
    split <;> rfl
  · refine hquiet _ ?_
    rw [sellFailed, announced_after, announced_endTick]
    rfl
  · exact terse_closed ..
  · exact hquiet _ (announced_storeWarning ..)
  · exact hquiet _ (announced_nextTick ..)
  · exact hquiet _ rfl

/-! ## A run to look at -/

/-- A plan that buys at once and sells as soon as it has bought. -/
def eagerPlan : Plan where
  settings := {}
  botId := default
  opportunity := default
  strategy :=
    { name := "eager"
      shouldBuy := fun _ => true
      shouldSell := fun _ _ => .ok (.because "take_profit")
      shouldExit := fun _ _ => false }
  classify := Classifier.standard

def sampleFill (side : Side) (netAmount : Decimal) : Fill :=
  ⟨default, side, "", .hundred, .one, netAmount, .zero, netAmount, "", .null, default⟩

end LaunchDesk.Run
