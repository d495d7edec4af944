import LaunchDesk.Proofs.Run.Words

/-!
# What the stores answer makes no difference

A run tells the stores what it does and goes on whatever they answer. So two runs in the same world,
with stores that answer differently and with clocks on the wall that show different times, are the
same but for the answers and the stamps. `untimed` is what is left of a thing without them.
-/

namespace LaunchDesk

/-! ## Without stamps -/

def Entry.untimed (e : Entry) : Entry := { e with time := default }

def Outcome.untimed : Outcome → Outcome
  | .completed trade => .completed { trade with history := trade.history.map Entry.untimed }
  | .exited departure => .exited { departure with history := departure.history.map Entry.untimed }

def Request.untimed : Request → Request
  | .insertOutcome outcome report => .insertOutcome outcome.untimed report
  | request => request

def Request.isStore : Request → Bool
  | .insertPosition _ => true
  | .closePosition _ _ => true
  | .insertOutcome _ _ => true
  | _ => false

/-- A reply without what a store answers. -/
def Reply.muted : Reply → Reply
  | .stored _ => .stored (.ok ())
  | reply => reply

def Event.untimed : Event → Event
  | .cycle bot outcome => .cycle bot outcome.untimed
  | event => event

def Moment.untimed (now : Moment) : Moment := { now with wall := default }

namespace Run

variable {plan : Plan} {cancelled : Bool} {now : Moment} {r : Run} {p q : Progress}

def Effect.untimed : Effect → Effect
  | .call request => .call request.untimed
  | .answer reply => .answer reply.muted
  | .publish event => .publish event.untimed

def Phase.untimed : Phase → Phase
  | .recording outcome report => .recording outcome.untimed report
  | .ended result => .ended (result.map Outcome.untimed)
  | phase => phase

def untimed (r : Run) : Run :=
  { r with entries := r.entries.map Entry.untimed, phase := r.phase.untimed }

theorem history_untimed (r : Run) : r.untimed.history = r.history.map Entry.untimed :=
  List.map_reverse.symm

theorem request_untimed (plan : Plan) (r : Run) :
    r.untimed.request? plan = (r.request? plan).map Request.untimed := by
  obtain ⟨tick, startMs, entries, phase⟩ := r
  cases phase <;> rfl

theorem isStore_untimed (request : Request) : request.untimed.isStore = request.isStore := by
  cases request <;> rfl

theorem awaits_untimed (request : Request) (reply : Reply) :
    request.untimed.awaits reply.muted = request.awaits reply := by
  cases request <;> cases reply <;> rfl

/-- One run goes on as the other, but for the stamps. -/
structure Strips (p q : Progress) : Prop where
  run : p.1.untimed = q.1
  shown : (p.2.flatMap Notice.effects).map Effect.untimed = q.2.flatMap Notice.effects

/-! ## One step -/

theorem strips_after {notices others : List Notice} (h : Strips p q)
    (hnotices : (notices.flatMap Notice.effects).map Effect.untimed =
      others.flatMap Notice.effects) : Strips (after notices p) (after others q) where
  run := h.run
  shown := by
    simp only [after, List.flatMap_append, List.map_append, hnotices, h.shown]

theorem strips_after_log {line other : Log.Line} (h : Strips p q) :
    Strips (after [.log line] p) (after [.log other] q) := strips_after h rfl

theorem strips_after_stored {message : String} {stored : Except Fault Unit}
    {notices others : List Notice} (h : Strips p q)
    (hnotices : (notices.flatMap Notice.effects).map Effect.untimed =
      others.flatMap Notice.effects) :
    Strips (after (storeWarning plan message stored ++ notices) p)
      (after (storeWarning plan message (.ok ()) ++ others) q) := by
  refine strips_after h ?_
  rw [List.flatMap_append, List.flatMap_append, storeWarning_effects, storeWarning_effects]
  exact hnotices

theorem untimed_recordOutcome (outcome : Outcome) : (recordOutcome plan now r outcome).untimed =
    recordOutcome plan now.untimed r.untimed outcome.untimed := by
  cases outcome <;> rfl

theorem strips_depart (reason : ExitReason) :
    Strips (depart plan now r reason) (depart plan now.untimed r.untimed reason) where
  run := by
    simp only [depart, untimed_recordOutcome, Outcome.untimed, history_untimed]
  shown := rfl

theorem strips_endTick (stance : Stance) :
    Strips (endTick plan now r stance) (endTick plan now.untimed r.untimed stance) := by
  have hrest : Strips (r.enter (.resting stance), []) (r.untimed.enter (.resting stance), []) :=
    ⟨rfl, rfl⟩
  cases stance with
  | looking => exact hrest
  | holding buy position => exact hrest
  | leaving deadline =>
    have hms : now.untimed.ms = now.ms := rfl
    by_cases hdue : deadline ≤ now.ms
    · simp only [endTick, hms, hdue, if_true]
      exact strips_after_log (strips_depart .strategyExit)
    · simp only [endTick, hms, hdue, if_false]
      exact hrest

theorem strips_nextTick (stance : Stance) :
    Strips (nextTick plan cancelled now r stance)
      (nextTick plan cancelled now.untimed r.untimed stance) := by
  have hleave : ∀ r : Run, Strips (depart plan now (r.record now none .cancelled) .stopped)
      (depart plan now.untimed (r.untimed.record now.untimed none .cancelled) .stopped) :=
    fun r => strips_depart .stopped
  cases stance with
  | holding buy position => exact ⟨rfl, rfl⟩
  | looking | leaving deadline =>
    cases cancelled with
    | false => exact ⟨rfl, rfl⟩
    | true => exact strips_after_log (hleave { r with tick := r.tick + 1 })

theorem strips_lookAt (seen : Snapshot) :
    Strips (lookAt plan now r seen) (lookAt plan now.untimed r.untimed seen) := by
  unfold lookAt
  split
  · exact strips_after_log (strips_endTick (r := r.record now (some seen) .exitSignal) _)
  split
  · exact ⟨rfl, rfl⟩
  · exact strips_endTick (r := r.record now (some seen) .observed) _

theorem strips_trySell (seen : Snapshot) (buy : Fill) (position : Position) (reason : String) :
    Strips (trySell plan now r seen buy position reason)
      (trySell plan now.untimed r.untimed seen buy position reason) := by
  unfold trySell
  cases position.changePercent seen.price with
  | error fault => exact ⟨rfl, rfl⟩
  | ok change => exact ⟨rfl, rfl⟩

theorem strips_watch (seen : Snapshot) (buy : Fill) (position : Position) :
    Strips (watch plan cancelled now r seen buy position)
      (watch plan cancelled now.untimed r.untimed seen buy position) := by
  simp only [watch]
  cases plan.strategy.shouldSell (position.observe seen.price) seen with
  | error fault => exact ⟨rfl, rfl⟩
  | ok decision =>
    simp only
    split
    · exact strips_trySell ..
    split
    · exact strips_trySell ..
    split
    · exact strips_after_log (strips_endTick (r := r.record now (some seen) .exitIgnored) _)
    · exact strips_endTick (r := r.record now (some seen) .observed) _

theorem strips_seeing (seen : Snapshot) (stance : Stance) :
    Strips (seeing plan cancelled now r seen stance)
      (seeing plan cancelled now.untimed r.untimed seen stance) := by
  cases stance with
  | looking => exact strips_lookAt seen
  | leaving deadline =>
    exact strips_endTick (r := r.record now (some seen) .observed) (.leaving deadline)
  | holding buy position => exact strips_watch seen buy position

theorem strips_buyFailed (seen : Snapshot) (cause : ExecutionFault) :
    Strips (buyFailed plan now r seen cause) (buyFailed plan now.untimed r.untimed seen cause) := by
  unfold buyFailed
  cases plan.classify cause with
  | fatal kind => exact ⟨rfl, rfl⟩
  | transient =>
    exact strips_after_log
      (strips_endTick (r := r.record now (some seen) (.buyFailed cause.message)) _)

theorem strips_opened (seen : Snapshot) (buy : Fill) (position : Position)
    (stored : Except Fault Unit) :
    Strips (opened plan now r seen buy position stored)
      (opened plan now.untimed r.untimed seen buy position (.ok ())) :=
  strips_after_stored (strips_endTick (r := r.record now (some seen) .bought) _) rfl

theorem strips_sold (seen : Snapshot) (buy sell : Fill) (position : Position) (reason : String) :
    Strips (sold r seen buy sell position reason)
      (sold r.untimed seen buy sell position reason) := by
  unfold sold
  cases closureOf position sell reason with
  | error fault => exact ⟨rfl, rfl⟩
  | ok closure => exact ⟨rfl, rfl⟩

theorem strips_closed (seen : Snapshot) (buy sell : Fill) (closure : Closure)
    (stored : Except Fault Unit) :
    Strips (closed plan now r seen buy sell closure stored)
      (closed plan now.untimed r.untimed seen buy sell closure (.ok ())) := by
  have hhistory := history_untimed (r.record now (some seen) .sold)
  refine strips_after_stored ?_ rfl
  rw [show r.untimed.record now.untimed (some seen) .sold =
    (r.record now (some seen) .sold).untimed from rfl, hhistory]
  unfold Outcome.ofFills
  cases sell.netAmount.sub buy.netAmount with
  | error fault => exact ⟨rfl, rfl⟩
  | ok pnl => exact ⟨untimed_recordOutcome _, rfl⟩

theorem strips_recorded (outcome : Outcome) (message : String) (stored : Except Fault Unit) :
    Strips (r.enter (.ended (.ok outcome)), storeWarning plan message stored)
      (r.untimed.enter (.ended (.ok outcome.untimed)), storeWarning plan message (.ok ())) where
  run := rfl
  shown := by
    rw [storeWarning_effects]
    rfl

/-- Neither the answers of the stores nor the stamps make a difference to how a run goes on. -/
theorem strips_resume (plan : Plan) (cancelled : Bool) (now : Moment) (r : Run) (reply : Reply) :
    Strips (resume plan cancelled now r reply)
      (resume plan cancelled now.untimed r.untimed reply.muted) := by
  cases hreply : (r.request? plan).any (·.awaits reply) with
  | false =>
    have huntimed : (r.untimed.request? plan).any (·.awaits reply.muted) = false := by
      rw [request_untimed, Option.any_map]
      simpa only [Function.comp_def, awaits_untimed] using hreply
    rw [resume_unawaited hreply, resume_unawaited huntimed]
    exact ⟨rfl, rfl⟩
  | true =>
    have hawaits := awaits_of_request hreply
    obtain ⟨tick, startMs, entries, phase⟩ := r
    -- Only the log hears of what a store answers, and the log is no part of what is compared.
    cases hawaits with
    | seen stance seen => exact strips_seeing seen stance
    | unseen stance fault => exact strips_after_log (strips_endTick stance)
    | bought seen buy => exact ⟨rfl, rfl⟩
    | unbought seen cause => exact strips_buyFailed seen cause
    | salvaged kind cause sell => exact ⟨rfl, rfl⟩
    | unsalvaged kind cause fault => exact ⟨rfl, rfl⟩
    | expired kind cause => exact ⟨rfl, rfl⟩
    | opened seen buy position answer => exact strips_opened seen buy position answer
    | sold seen buy position reason sell => exact strips_sold seen buy sell position reason
    | unsold seen buy position reason cause =>
      exact strips_after_log (strips_endTick (.holding buy position))
    | closed seen buy sell position closure answer =>
      exact strips_closed seen buy sell closure answer
    | recorded outcome report answer => exact strips_recorded outcome _ answer
    | rested stance => exact strips_nextTick stance

theorem strips_start (plan : Plan) (cancelled : Bool) (now : Moment) :
    Strips (start plan cancelled now) (start plan cancelled now.untimed) :=
  strips_after_log (strips_nextTick .looking)

theorem untimed_effects (plan : Plan) (h : Strips p q) :
    (effects plan p).map Effect.untimed = effects plan q := by
  have hrequest : ((p.1.request? plan).elim [] Effect.ofRequest).map Effect.untimed =
      (q.1.request? plan).elim [] Effect.ofRequest := by
    rw [← h.run, request_untimed]
    cases p.1.request? plan with
    | none => rfl
    | some request => cases request <;> rfl
  rw [effects, List.map_append, h.shown, hrequest]
  rfl

/-! ## Two runs in one world -/

/-- What has been seen, each with the time on the clock that counts milliseconds. -/
abbrev Timeline : Type := List (Nat × Effect)

def Timeline.untimed (seen : Timeline) : Timeline := seen.map fun e => (e.1, e.2.untimed)

theorem Timeline.untimed_append (a b : Timeline) :
    Timeline.untimed (a ++ b) = Timeline.untimed a ++ Timeline.untimed b := List.map_append

theorem Timeline.untimed_at (ms : Nat) (w : List Effect) :
    Timeline.untimed (w.map fun e => (ms, e)) = (w.map Effect.untimed).map fun e => (ms, e) := by
  rw [Timeline.untimed, List.map_map, List.map_map]
  rfl

theorem untimed_ofReply (reply : Reply) :
    (Effect.ofReply reply).map Effect.untimed = Effect.ofReply reply.muted := by
  cases reply <;> rfl

/-- The world of a run. It knows what was seen so far, but for the answers of the stores and the
stamps. Scripts that go by the number of a call are such worlds, and so are cancels at any time. -/
structure World where
  cancelled : Timeline → Nat → Bool
  /-- How long an answer takes, that of a store too. -/
  delayMs : Timeline → Request → Nat
  /-- What the market and the exchange answer. -/
  reply : Timeline → Request → Reply

/-- What the stores answer, whatever they know. -/
abbrev Stores : Type := Timeline → Request → Except Fault Unit

structure Scene where
  nowMs : Nat
  run : Run
  seen : Timeline

namespace Scene

variable {s t : Scene} {world : World} {stores stores' : Stores} {wall wall' : Stamp}

def reply (world : World) (stores : Stores) (s : Scene) (request : Request) : Reply :=
  if request.isStore then .stored (stores s.seen request)
  else world.reply s.seen.untimed request.untimed

def turn (world : World) (stores : Stores) (wall : Stamp) (s : Scene) (request : Request) : Turn :=
  let ms := s.nowMs + world.delayMs s.seen.untimed request.untimed
  { cancelled := world.cancelled s.seen.untimed ms
    now := ⟨ms, wall⟩
    reply := s.reply world stores request }

def take (plan : Plan) (s : Scene) (turn : Turn) : Scene :=
  let p := s.run.resume plan turn.cancelled turn.now turn.reply
  { nowMs := turn.now.ms
    run := p.1
    seen := s.seen ++
      (Effect.ofReply turn.reply ++ effects plan p).map fun e => (turn.now.ms, e) }

def next (plan : Plan) (world : World) (stores : Stores) (wall : Stamp) (s : Scene) : Scene :=
  match s.run.request? plan with
  | none => s
  | some request =>
    let turn := s.turn world stores wall request
    if request.awaits turn.reply then s.take plan turn else s

/-- Two scenes are the same but for the answers of the stores and the stamps. -/
structure Alike (s t : Scene) : Prop where
  time : s.nowMs = t.nowMs
  run : s.run.untimed = t.run.untimed
  seen : s.seen.untimed = t.seen.untimed

theorem muted_reply {request request' : Request} (h : Alike s t)
    (hrequest : request.untimed = request'.untimed) :
    (s.reply world stores request).muted = (t.reply world stores' request').muted := by
  have hstore : request.isStore = request'.isStore := by
    rw [← isStore_untimed, hrequest, isStore_untimed]
  unfold reply
  rw [hstore, h.seen, hrequest]
  split <;> rfl

theorem Alike.take {a b : Turn} (h : Alike s t) (hcancelled : a.cancelled = b.cancelled)
    (hms : a.now.ms = b.now.ms) (hreply : a.reply.muted = b.reply.muted) :
    Alike (s.take plan a) (t.take plan b) := by
  have hs := strips_resume plan a.cancelled a.now s.run a.reply
  have ht := strips_resume plan b.cancelled b.now t.run b.reply
  have hsame : resume plan a.cancelled a.now.untimed s.run.untimed a.reply.muted =
      resume plan b.cancelled b.now.untimed t.run.untimed b.reply.muted := by
    rw [h.run, hcancelled, hreply, Moment.untimed, Moment.untimed, hms]
  rw [hsame] at hs
  have hanswer := (untimed_ofReply a.reply).trans
    ((congrArg Effect.ofReply hreply).trans (untimed_ofReply b.reply).symm)
  have heffects := (untimed_effects plan hs).trans (untimed_effects plan ht).symm
  refine ⟨hms, hs.run.trans ht.run.symm, ?_⟩
  simp only [Scene.take, Timeline.untimed_append, Timeline.untimed_at, List.map_append, h.seen,
    hms, hanswer, heffects]

theorem Alike.next (h : Alike s t) :
    Alike (s.next plan world stores wall) (t.next plan world stores' wall') := by
  have hrequest : (s.run.request? plan).map Request.untimed =
      (t.run.request? plan).map Request.untimed := by
    rw [← request_untimed, h.run, request_untimed]
  unfold Scene.next
  cases hs : s.run.request? plan with
  | none =>
    rw [hs] at hrequest
    rw [Option.map_eq_none_iff.mp hrequest.symm]
    exact h
  | some request =>
    rw [hs] at hrequest
    obtain ⟨request', ht, hsame⟩ := Option.map_eq_some_iff.mp hrequest.symm
    have hreply : (s.reply world stores request).muted = (t.reply world stores' request').muted :=
      muted_reply h hsame.symm
    have hawaits : request.awaits (s.reply world stores request) =
        request'.awaits (t.reply world stores' request') := by
      rw [← awaits_untimed, ← awaits_untimed request', hreply, hsame]
    simp only [ht, turn, h.time, h.seen, hsame, hawaits]
    split
    · exact h.take rfl rfl hreply
    · exact h

end Scene

/-- A run in a world for a number of steps, with the times that the clock on the wall shows. -/
def enact (plan : Plan) (world : World) (stores : Stores) (wall : Nat → Stamp) : Nat → Scene
  | 0 =>
    let p := start plan (world.cancelled [] 0) ⟨0, wall 0⟩
    { nowMs := 0, run := p.1, seen := (effects plan p).map fun e => (0, e) }
  | n + 1 => (enact plan world stores wall n).next plan world stores (wall (n + 1))

def result? (r : Run) : Option (Except Fault Outcome) :=
  match r.phase with
  | .ended result => some result
  | _ => none

theorem alike_enact (plan : Plan) (world : World) (stores stores' : Stores)
    (wall wall' : Nat → Stamp) (n : Nat) :
    Scene.Alike (enact plan world stores wall n) (enact plan world stores' wall' n) := by
  induction n with
  | zero =>
    have h := strips_start plan (world.cancelled [] 0) ⟨0, wall 0⟩
    have h' := strips_start plan (world.cancelled [] 0) ⟨0, wall' 0⟩
    refine ⟨rfl, h.run.trans h'.run.symm, ?_⟩
    simp only [enact, Timeline.untimed_at, untimed_effects plan h, untimed_effects plan h']
    rfl
  | succ n ih => exact ih.next

/-- A run in a world is played, with the turns that the world takes. -/
theorem enact_is_play (plan : Plan) (world : World) (stores : Stores) (wall : Nat → Stamp)
    (n : Nat) : ∃ turns, play plan (world.cancelled [] 0) ⟨0, wall 0⟩ turns =
      ((enact plan world stores wall n).run, (enact plan world stores wall n).seen.map (·.2)) := by
  induction n with
  | zero =>
    refine ⟨[], ?_⟩
    simp [play, enact]
  | succ n ih =>
    obtain ⟨turns, hplay⟩ := ih
    rw [enact, Scene.next]
    split
    · exact ⟨turns, hplay⟩
    · next request hrequest =>
      simp only
      split
      · next hawaits =>
        let scene := enact plan world stores wall n
        refine ⟨turns ++ [scene.turn world stores (wall (n + 1)) request], ?_⟩
        rw [play_snoc, hplay, takeTurn, hrequest, Option.any_some, if_pos hawaits]
        simp [Scene.take, scene]
      · exact ⟨turns, hplay⟩

theorem result_untimed (r : Run) : r.untimed.result? = r.result?.map (·.map Outcome.untimed) := by
  obtain ⟨tick, startMs, entries, phase⟩ := r
  cases phase <;> rfl

/-- Whatever the stores answer, a run makes the same calls at the same times, publishes the same
events, has the same history and comes to the same result; only the stamps differ. -/
theorem stores_make_no_difference (plan : Plan) (world : World) (stores stores' : Stores)
    (wall wall' : Nat → Stamp) (n : Nat) :
    let a := enact plan world stores wall n
    let b := enact plan world stores' wall' n
    a.nowMs = b.nowMs ∧ a.seen.untimed = b.seen.untimed ∧
      a.run.history.map Entry.untimed = b.run.history.map Entry.untimed ∧
      a.run.result?.map (·.map Outcome.untimed) = b.run.result?.map (·.map Outcome.untimed) := by
  intro a b
  have h : Scene.Alike a b := alike_enact plan world stores stores' wall wall' n
  refine ⟨h.time, h.seen, ?_, ?_⟩
  · rw [← history_untimed, h.run, history_untimed]
  · rw [← result_untimed, h.run, result_untimed]

/-- Every call but a rest takes five milliseconds, and all of them succeed. -/
def smoothWorld : World where
  cancelled := fun _ _ => false
  delayMs := fun _ request =>
    match request with
    | .rest ms => ms
    | _ => 5
  reply := fun _ request =>
    match request with
    | .snapshot => .snapshot (.ok default)
    | .buy _ => .order (.ok (sampleFill .buy .one))
    | .rest _ => .rested
    | _ => .order (.ok (sampleFill .sell .hundred))

/-- Three failures to store something do not keep a run from its trade. -/
example : ∃ trade, (enact eagerPlan smoothWorld (fun _ _ => .error (.store "down"))
    (fun _ => default) 8).run.result? = some (.ok (.completed trade)) := ⟨_, rfl⟩

end Run

end LaunchDesk
