import LaunchDesk.Proofs.Run.Effects
import LaunchDesk.Proofs.Run.Published

/-!
# Runs stay within the language

What is seen of a run is at any time the beginning of a word of `words`, and when the run has ended
it is a whole word of its result. The invariant is `Shows`: for each phase, how far a word has come.
-/

open Computability

namespace LaunchDesk.Run

variable {plan : Plan} {now : Moment} {r : Run} {u w : List Effect}

/-! ## Languages -/

theorem kstar_snoc {l : Language Effect} (hu : u ∈ l∗) (hw : w ∈ l) : u ++ w ∈ l∗ := by
  obtain ⟨ws, rfl, hws⟩ := Language.mem_kstar.mp hu
  refine Language.mem_kstar.mpr ⟨ws ++ [w], by simp, ?_⟩
  intro y hy
  rcases List.mem_append.mp hy with hy | hy
  · exact hws y hy
  · rw [List.mem_singleton.mp hy]
    exact hw

theorem look_mem_idleTick (answer : Except Fault Snapshot) : look answer ∈ idleTick plan :=
  Or.inl ⟨answer, rfl⟩

theorem look_mem_holdTick (buy : Fill) (answer : Except Fault Snapshot) :
    look answer ∈ holdTick buy := Or.inl ⟨answer, rfl⟩

theorem held_snoc {buy : Fill} (hu : u ∈ held plan buy) (hw : w ∈ holdTick buy) :
    u ++ w ∈ held plan buy := by
  obtain ⟨a, ha, b, hb, rfl⟩ := Language.mem_mul.mp hu
  rw [List.append_assoc]
  exact Language.append_mem_mul ha (kstar_snoc hb hw)

theorem mem_held_of_opening {buy : Fill} (hu : u ∈ (idleTick plan)∗) (hw : w ∈ opening plan buy) :
    u ++ w ∈ held plan buy := by
  have h := Language.append_mem_mul (Language.append_mem_mul hu hw)
    (Language.nil_mem_kstar (holdTick buy))
  rwa [List.append_nil] at h

/-! ## The invariant -/

/-- What has been seen of a run between two ticks. -/
def Between (plan : Plan) : Stance → List Effect → Prop
  | .looking, w => w ∈ (idleTick plan)∗
  | .leaving _, w => w ∈ (idleTick plan)∗
  | .holding buy position, w => IsOf plan.botId buy position ∧ w ∈ held plan buy

/-- The effects so far are the beginning of a word. -/
def Begins (plan : Plan) (w : List Effect) : Prop := ∃ result, ∃ v ∈ words plan result, w <+: v

/-- What has been seen of a run in a phase. -/
def Shows (plan : Plan) : Phase → List Effect → Prop
  | .resting stance, w => Between plan stance w
  | .fetching stance, w => ∃ u, Between plan stance u ∧ w = u ++ [.call .snapshot]
  | .buying seen, w => ∃ u ∈ (idleTick plan)∗, ∃ order,
      w = u ++ look (.ok seen) ++ [.call (.buy order)]
  | .salvaging kind cause, w => ∃ u ∈ (idleTick plan)∗, ∃ seen order sale limit,
      plan.classify cause = .fatal kind ∧ sale.tokenAmount = none ∧
      w = u ++ look (.ok seen) ++ exchange (.buy order) (.order (.error cause)) ++
        [.call (.salvage sale limit)]
  | .opening seen buy position, w => ∃ u ∈ (idleTick plan)∗, ∃ order,
      IsOf plan.botId buy position ∧
      w = u ++ look (.ok seen) ++ exchange (.buy order) (.order (.ok buy)) ++
        [.call (.insertPosition position)]
  | .selling seen buy position _, w => ∃ u ∈ held plan buy, ∃ order,
      IsOf plan.botId buy position ∧ order.tokenAmount = some buy.tokenAmount ∧
      w = u ++ look (.ok seen) ++ [.call (.sell order)]
  | .closing seen buy sell _ closure, w => ∃ u ∈ held plan buy, ∃ order,
      order.tokenAmount = some buy.tokenAmount ∧
      w = u ++ look (.ok seen) ++ exchange (.sell order) (.order (.ok sell)) ++
        [.call (.closePosition buy.id closure)]
  | .recording outcome report, w => ∃ u, w = u ++ [.call (.insertOutcome outcome report)] ∧
      ∀ stored, u ++ exchange (.insertOutcome outcome report) (.stored stored) ∈
        words plan (.ok outcome)
  | .ended result, w => w ∈ words plan result
  | .crashed _, w => Begins plan w

/-- A run that goes on so after `w` was seen keeps the invariant. -/
def GoesOn (plan : Plan) (w : List Effect) (p : Progress) : Prop :=
  Shows plan p.1.phase (w ++ effects plan p)

/-! ## Beginnings of words -/

theorem Begins.of_longer {v : List Effect} (h : Begins plan w) (hv : v <+: w) : Begins plan v := by
  obtain ⟨result, word, hword, hw⟩ := h
  exact ⟨result, word, hword, hv.trans hw⟩

theorem begins_of_idle (h : u ∈ (idleTick plan)∗) : Begins plan u := by
  -- Any departure completes the word; which one does not matter.
  let departure : Departure := ⟨plan.botId, plan.opportunity.mint, .stopped, []⟩
  let report : Report := ⟨plan.botId, plan.opportunity.mint, 0, 0, .zero⟩
  exact ⟨.ok (.exited departure), _, Language.append_mem_mul h ⟨report, .ok (), rfl⟩,
    List.prefix_append _ _⟩

theorem begins_of_sale {buy : Fill} {order : SellOrder} (h : u ∈ held plan buy)
    (ho : order.tokenAmount = some buy.tokenAmount) (seen : Snapshot) (sell : Fill)
    (closure : Closure) (closed : Except Fault Unit) :
    Begins plan (u ++ look (.ok seen) ++ exchange (.sell order) (.order (.ok sell)) ++
      exchange (.closePosition buy.id closure) (.stored closed) ++
      [.publish (.trade plan.botId sell)]) := by
  -- Only the fills of a trade occur in its word, so a trade of any gain will do.
  let trade : RoundTrip := ⟨plan.botId, buy.mint, buy, sell, .zero, "", []⟩
  let report : Report := ⟨plan.botId, buy.mint, 0, 0, .zero⟩
  have hs : _ ∈ settling plan trade := ⟨seen, order, closure, closed, report, .ok (), ho, rfl⟩
  refine ⟨.ok (.completed trade), _, Language.append_mem_mul h hs, ?_⟩
  simp [trade]

theorem begins_of_held {buy : Fill} (h : u ∈ held plan buy) : Begins plan u := by
  -- The next tick may sell; the buy itself is taken for the fill of that sell.
  let order : SellOrder := ⟨plan.botId, buy.mint, "", some buy.tokenAmount, 0, "", .null⟩
  let closure : Closure := ⟨buy.price, .zero, "", "", buy.executedAt⟩
  have hs : Begins plan _ :=
    begins_of_sale h (show order.tokenAmount = _ from rfl) default buy closure (.ok ())
  exact hs.of_longer (by simp)

theorem begins_of_between {stance : Stance} (h : Between plan stance w) : Begins plan w := by
  cases stance with
  | looking => exact begins_of_idle h
  | leaving deadline => exact begins_of_idle h
  | holding buy position => exact begins_of_held h.2

theorem between_look {stance : Stance} (h : Between plan stance w)
    (answer : Except Fault Snapshot) : Between plan stance (w ++ look answer) := by
  cases stance with
  | looking => exact kstar_snoc h (look_mem_idleTick answer)
  | leaving deadline => exact kstar_snoc h (look_mem_idleTick answer)
  | holding buy position => exact ⟨h.1, held_snoc h.2 (look_mem_holdTick buy answer)⟩

/-! ## One step -/

theorem effects_after (notices : List Notice) (p : Progress) :
    effects plan (after notices p) = notices.flatMap Notice.effects ++ effects plan p := by
  simp [effects, after]

theorem request_of_mem_effects {p : Progress} {request : Request}
    (h : .call request ∈ effects plan p) : p.1.request? plan = some request := by
  rcases List.mem_append.mp h with hnotice | hrequest
  · obtain ⟨notice, -, hin⟩ := List.mem_flatMap.mp hnotice
    cases notice <;> simp [Notice.effects] at hin
  · cases hother : p.1.request? plan with
    | none => simp [hother] at hrequest
    | some other =>
      rw [hother, Option.elim_some] at hrequest
      cases other <;> simp_all [Effect.ofRequest]

theorem goesOn_after {notices : List Notice} {p : Progress}
    (h : GoesOn plan (w ++ notices.flatMap Notice.effects) p) :
    GoesOn plan w (after notices p) := by
  unfold GoesOn
  rw [effects_after, ← List.append_assoc]
  exact h

theorem goesOn_after_log {line : Log.Line} {p : Progress} (h : GoesOn plan w p) :
    GoesOn plan w (after [.log line] p) := by
  apply goesOn_after
  rw [show [Notice.log line].flatMap Notice.effects = [] from rfl, List.append_nil]
  exact h

theorem goesOn_rest {stance : Stance} (h : Between plan stance w) :
    GoesOn plan w (r.enter (.resting stance), []) := by
  have he : effects plan (r.enter (.resting stance), []) = [] := rfl
  rw [GoesOn, he, List.append_nil]
  exact h

theorem goesOn_crash {fault : Decimal.Fault} (h : Begins plan w) :
    GoesOn plan w (r.enter (.crashed fault), []) := by
  have he : effects plan (r.enter (.crashed fault), []) = [] := rfl
  rw [GoesOn, he, List.append_nil]
  exact h

theorem goesOn_recordOutcome {outcome : Outcome}
    (h : ∀ report stored,
      w ++ exchange (.insertOutcome outcome report) (.stored stored) ∈ words plan (.ok outcome)) :
    GoesOn plan w (recordOutcome plan now r outcome, []) := ⟨w, rfl, fun stored => h _ stored⟩

theorem goesOn_depart {reason : ExitReason} (h : w ∈ (idleTick plan)∗) :
    GoesOn plan w (depart plan now r reason) := by
  change GoesOn plan w (after [_] (recordOutcome plan now r _, []))
  apply goesOn_after_log
  apply goesOn_recordOutcome
  intro report stored
  exact Language.append_mem_mul h ⟨report, stored, rfl⟩

theorem goesOn_endTick {stance : Stance} (h : Between plan stance w) :
    GoesOn plan w (endTick plan now r stance) := by
  cases stance with
  | looking => exact goesOn_rest h
  | holding buy position => exact goesOn_rest h
  | leaving deadline =>
    simp only [endTick]
    split
    · exact goesOn_after_log (goesOn_depart h)
    · exact goesOn_rest h

theorem goesOn_fetch {stance : Stance} (h : Between plan stance w) :
    GoesOn plan w (r.enter (.fetching stance), []) := ⟨w, h, rfl⟩

theorem goesOn_nextTick {stance : Stance} (cancelled : Bool) (h : Between plan stance w) :
    GoesOn plan w (nextTick plan cancelled now r stance) := by
  cases stance with
  | holding buy position => exact goesOn_fetch h
  | looking | leaving deadline =>
    cases cancelled with
    | false => exact goesOn_fetch h
    | true => exact goesOn_after_log (goesOn_depart h)

theorem goesOn_lookAt (seen : Snapshot) (h : u ∈ (idleTick plan)∗) :
    GoesOn plan (u ++ look (.ok seen)) (lookAt plan now r seen) := by
  have hlook := kstar_snoc h (look_mem_idleTick (.ok seen))
  unfold lookAt
  split
  · exact goesOn_after_log (goesOn_endTick hlook)
  · split
    · exact ⟨u, h, makeBuyOrder plan, rfl⟩
    · exact goesOn_endTick hlook

theorem goesOn_trySell {buy : Fill} {position : Position} (seen : Snapshot) (reason : String)
    (hp : IsOf plan.botId buy position) (h : u ∈ held plan buy) :
    GoesOn plan (u ++ look (.ok seen)) (trySell plan now r seen buy position reason) := by
  unfold trySell
  cases position.changePercent seen.price with
  -- The gain overflows before the sell is asked for, so nothing but the look has been seen.
  | error fault =>
    exact goesOn_crash (begins_of_held (held_snoc h (look_mem_holdTick buy (.ok seen))))
  | ok change =>
    have hamount : (makeSellOrder plan position reason).tokenAmount = some buy.tokenAmount := by
      rw [← hp.2.2.2.2.1]
      rfl
    exact ⟨u, h, makeSellOrder plan position reason, hp, hamount, rfl⟩

theorem isOf_observe {bot : BotId} {buy : Fill} {position : Position}
    (h : IsOf bot buy position) (price : Decimal) : IsOf bot buy (position.observe price) := by
  unfold Position.observe
  split
  · exact h
  · exact h

theorem goesOn_watch {buy : Fill} {position : Position} (cancelled : Bool) (seen : Snapshot)
    (hp : IsOf plan.botId buy position) (h : u ∈ held plan buy) :
    GoesOn plan (u ++ look (.ok seen)) (watch plan cancelled now r seen buy position) := by
  have hlook := held_snoc h (look_mem_holdTick buy (.ok seen))
  have hseen := isOf_observe hp seen.price
  unfold watch
  simp only
  cases plan.strategy.shouldSell (position.observe seen.price) seen with
  | error fault => exact goesOn_crash (begins_of_held hlook)
  | ok decision =>
    simp only
    split
    · exact goesOn_trySell seen _ hseen h
    · split
      · exact goesOn_trySell seen _ hseen h
      · split
        · exact goesOn_after_log (goesOn_endTick ⟨hseen, hlook⟩)
        · exact goesOn_endTick ⟨hseen, hlook⟩

theorem goesOn_seeing {stance : Stance} (cancelled : Bool) (seen : Snapshot)
    (h : Between plan stance u) :
    GoesOn plan (u ++ look (.ok seen)) (seeing plan cancelled now r seen stance) := by
  cases stance with
  | looking => exact goesOn_lookAt seen h
  | leaving deadline =>
    have hlook := between_look h (.ok seen)
    exact goesOn_endTick hlook
  | holding buy position => exact goesOn_watch cancelled seen h.1 h.2

theorem goesOn_snapshotFailed {stance : Stance} (fault : Fault) (h : Between plan stance u) :
    GoesOn plan (u ++ look (.error fault)) (snapshotFailed plan now r stance fault) :=
  goesOn_after_log (goesOn_endTick (between_look h (.error fault)))

theorem goesOn_buyFailed (seen : Snapshot) (order : BuyOrder) (cause : ExecutionFault)
    (h : u ∈ (idleTick plan)∗) :
    GoesOn plan (u ++ look (.ok seen) ++ exchange (.buy order) (.order (.error cause)))
      (buyFailed plan now r seen cause) := by
  unfold buyFailed
  simp only
  cases hc : plan.classify cause with
  | fatal kind =>
    exact ⟨u, h, seen, order, makeSalvageOrder plan, _, hc, rfl, rfl⟩
  | transient =>
    -- A buy that has failed is a whole tick, after which the run is as far as before.
    have htick : _ ∈ idleTick plan := Or.inr ⟨seen, order, cause, hc, rfl⟩
    have hu := kstar_snoc h htick
    rw [← List.append_assoc] at hu
    exact goesOn_after_log (goesOn_endTick hu)

theorem isOf_openPosition (seen : Snapshot) (buy : Fill) :
    IsOf plan.botId buy (openPosition plan seen buy) := ⟨rfl, rfl, rfl, rfl, rfl, rfl⟩

theorem storeWarning_effects (message : String) (stored : Except Fault Unit) :
    (storeWarning plan message stored).flatMap Notice.effects = [] := by
  cases stored with
  | ok _ => rfl
  | error _ => rfl

theorem goesOn_opened {buy : Fill} {position : Position} (seen : Snapshot) (order : BuyOrder)
    (stored : Except Fault Unit) (hp : IsOf plan.botId buy position) (h : u ∈ (idleTick plan)∗) :
    GoesOn plan (u ++ look (.ok seen) ++ exchange (.buy order) (.order (.ok buy)) ++
        exchange (.insertPosition position) (.stored stored))
      (opened plan now r seen buy position stored) := by
  have htick : _ ∈ opening plan buy := ⟨seen, order, position, stored, hp, rfl⟩
  -- From here on what was seen is read as the ticks of a run that holds the position.
  have hheld := mem_held_of_opening h htick
  simp only [← List.append_assoc] at hheld
  apply goesOn_after
  rw [List.flatMap_append, storeWarning_effects]
  exact goesOn_endTick ⟨hp, hheld⟩

/-! ## Selling -/

theorem goesOn_sellFailed {buy : Fill} {position : Position} {order : SellOrder} (seen : Snapshot)
    (cause : ExecutionFault) (hp : IsOf plan.botId buy position)
    (ho : order.tokenAmount = some buy.tokenAmount) (h : u ∈ held plan buy) :
    GoesOn plan (u ++ look (.ok seen) ++ exchange (.sell order) (.order (.error cause)))
      (sellFailed plan now r seen buy position cause) := by
  have htick : _ ∈ holdTick buy := Or.inr ⟨seen, order, cause, ho, rfl⟩
  have hu := held_snoc h htick
  rw [← List.append_assoc] at hu
  exact goesOn_after_log (goesOn_endTick ⟨hp, hu⟩)

theorem goesOn_sold {buy sell : Fill} {position : Position} {order : SellOrder} (seen : Snapshot)
    (reason : String) (hp : IsOf plan.botId buy position)
    (ho : order.tokenAmount = some buy.tokenAmount) (h : u ∈ held plan buy) :
    GoesOn plan (u ++ look (.ok seen) ++ exchange (.sell order) (.order (.ok sell)))
      (sold r seen buy sell position reason) := by
  unfold sold
  cases closureOf position sell reason with
  | error fault =>
    let closure : Closure := ⟨sell.price, .zero, "", "", sell.executedAt⟩
    exact goesOn_crash ((begins_of_sale h ho seen sell closure (.ok ())).of_longer (by simp))
  | ok closure =>
    refine ⟨u, h, order, ho, ?_⟩
    rw [← hp.1]
    rfl

theorem goesOn_closed {buy sell : Fill} {order : SellOrder} {closure : Closure} (seen : Snapshot)
    (stored : Except Fault Unit) (ho : order.tokenAmount = some buy.tokenAmount)
    (h : u ∈ held plan buy) :
    GoesOn plan (u ++ look (.ok seen) ++ exchange (.sell order) (.order (.ok sell)) ++
        exchange (.closePosition buy.id closure) (.stored stored))
      (closed plan now r seen buy sell closure stored) := by
  apply goesOn_after
  rw [List.flatMap_append, storeWarning_effects]
  split
  · exact goesOn_crash (begins_of_sale h ho seen sell closure stored)
  · rename_i outcome hfills
    obtain ⟨trade, rfl, rfl, rfl, -⟩ := ofFills_eq_ok hfills
    change GoesOn plan _ (after [_, _] (recordOutcome plan now _ (.completed trade), []))
    apply goesOn_after
    apply goesOn_recordOutcome
    intro report closed
    have hs : _ ∈ settling plan trade := ⟨seen, order, closure, stored, report, closed, ho, rfl⟩
    have hw := Language.append_mem_mul h hs
    simpa [words, Notice.effects, info] using hw

/-! ## Whole runs -/

theorem append_exchange (request : Request) (reply : Reply) :
    w ++ [.call request] ++ [.answer reply] = w ++ exchange request reply := by
  simp [exchange]

theorem goesOn_end {result : Except Fault Outcome} {notices : List Notice}
    (hn : notices.flatMap Notice.effects = []) (h : w ∈ words plan result) :
    GoesOn plan w (r.enter (.ended result), notices) := by
  have he : effects plan (r.enter (.ended result), notices) = [] := by
    rw [effects, hn]
    rfl
  rw [GoesOn, he, List.append_nil]
  exact h

/-- Whatever comes of a salvage, the word ends with it. -/
theorem goesOn_salvaged {kind : FatalKind} {cause : ExecutionFault} {line : Log.Line}
    {reply : Reply} (h : Shows plan (.salvaging kind cause) w)
    (hreply : Effect.ofReply reply = [.answer reply]) :
    GoesOn plan (w ++ Effect.ofReply reply) (salvaged plan r kind cause line) := by
  obtain ⟨u, hu, seen, order, sale, limit, hc, hs, rfl⟩ := h
  have hend : _ ∈ salvaging plan kind cause := ⟨seen, order, sale, limit, reply, hc, hs, rfl⟩
  have hword := Language.append_mem_mul hu hend
  rw [hreply, append_exchange]
  exact goesOn_end rfl (by simpa [words] using hword)

/-- The invariant is kept by every reply that the run waits for. -/
theorem goesOn_resume {reply : Reply} (cancelled : Bool) (h : Shows plan r.phase w)
    (ha : (r.request? plan).any (·.awaits reply) = true) :
    GoesOn plan (w ++ Effect.ofReply reply) (resume plan cancelled now r reply) := by
  have hawaits := awaits_of_request ha
  obtain ⟨tick, startMs, entries, phase⟩ := r
  -- The phase says how the word so far is made up.
  cases hawaits with
  | seen stance seen =>
    obtain ⟨u, hu, rfl⟩ := h
    simp only [Effect.ofReply, append_exchange]
    exact goesOn_seeing cancelled seen hu
  | unseen stance fault =>
    obtain ⟨u, hu, rfl⟩ := h
    simp only [Effect.ofReply, append_exchange]
    exact goesOn_snapshotFailed fault hu
  | bought seen buy =>
    obtain ⟨u, hu, order, rfl⟩ := h
    simp only [Effect.ofReply, append_exchange]
    exact ⟨u, hu, order, isOf_openPosition seen buy, rfl⟩
  | unbought seen cause =>
    obtain ⟨u, hu, order, rfl⟩ := h
    simp only [Effect.ofReply, append_exchange]
    exact goesOn_buyFailed seen order cause hu
  | salvaged kind cause sell => exact goesOn_salvaged h rfl
  | unsalvaged kind cause fault => exact goesOn_salvaged h rfl
  | expired kind cause => exact goesOn_salvaged h rfl
  | opened seen buy position answer =>
    obtain ⟨u, hu, order, hp, rfl⟩ := h
    simp only [Effect.ofReply, append_exchange]
    exact goesOn_opened seen order answer hp hu
  | sold seen buy position reason sell =>
    obtain ⟨u, hu, order, hp, ho, rfl⟩ := h
    simp only [Effect.ofReply, append_exchange]
    exact goesOn_sold seen reason hp ho hu
  | unsold seen buy position reason cause =>
    obtain ⟨u, hu, order, hp, ho, rfl⟩ := h
    simp only [Effect.ofReply, append_exchange]
    exact goesOn_sellFailed seen cause hp ho hu
  | closed seen buy sell position closure answer =>
    obtain ⟨u, hu, order, ho, rfl⟩ := h
    simp only [Effect.ofReply, append_exchange]
    exact goesOn_closed seen answer ho hu
  | recorded outcome report answer =>
    obtain ⟨u, rfl, hu⟩ := h
    simp only [Effect.ofReply, append_exchange]
    exact goesOn_end (storeWarning_effects _ answer) (hu answer)
  | rested stance =>
    rw [Effect.ofReply, List.append_nil]
    exact goesOn_nextTick cancelled h

theorem goesOn_start (cancelled : Bool) : GoesOn plan [] (start plan cancelled now) := by
  apply goesOn_after_log
  exact goesOn_nextTick cancelled (Language.nil_mem_kstar (idleTick plan))

theorem shows_takeTurn {s : Run × List Effect} (t : Turn) (h : Shows plan s.1.phase s.2) :
    Shows plan (takeTurn plan s t).1.phase (takeTurn plan s t).2 := by
  unfold takeTurn
  split
  · rename_i ha
    exact goesOn_resume t.cancelled h ha
  · exact h

theorem play_snoc (cancelled : Bool) (turns : List Turn) (t : Turn) :
    play plan cancelled now (turns ++ [t]) = takeTurn plan (play plan cancelled now turns) t := by
  simp [play]

theorem shows_play (plan : Plan) (cancelled : Bool) (now : Moment) (turns : List Turn) :
    Shows plan (play plan cancelled now turns).1.phase (play plan cancelled now turns).2 := by
  -- A turn is taken after all those before it, so the induction takes them off at the end.
  induction turns using List.reverseRecOn with
  | nil => exact goesOn_start cancelled
  | append_singleton turns t ih =>
    rw [play_snoc]
    exact shows_takeTurn t ih

/-- In every phase a word can still be completed. -/
theorem begins_of_shows {phase : Phase} (h : Shows plan phase w) : Begins plan w := by
  -- In each phase the request that is under way is answered in some way that the language has.
  cases phase with
  | resting stance => exact begins_of_between h
  | fetching stance =>
    obtain ⟨u, hu, rfl⟩ := h
    exact (begins_of_between (between_look hu (.ok default))).of_longer (by simp [look, exchange])
  | buying seen =>
    obtain ⟨u, hu, order, rfl⟩ := h
    let buy : Fill :=
      ⟨default, .buy, "", .zero, .zero, .zero, .zero, .zero, "", .null, default⟩
    have hopen : _ ∈ opening plan buy :=
      ⟨seen, order, openPosition plan seen buy, .ok (), isOf_openPosition seen buy, rfl⟩
    exact (begins_of_held (mem_held_of_opening hu hopen)).of_longer (by simp [exchange])
  | salvaging kind cause =>
    obtain ⟨u, hu, seen, order, sale, limit, hc, hs, rfl⟩ := h
    have hend : _ ∈ salvaging plan kind cause :=
      ⟨seen, order, sale, limit, .expired, hc, hs, rfl⟩
    exact ⟨.error (.buyFatal kind cause), _, Language.append_mem_mul hu hend, by simp [exchange]⟩
  | opening seen buy position =>
    obtain ⟨u, hu, order, hp, rfl⟩ := h
    have hopen : _ ∈ opening plan buy := ⟨seen, order, position, .ok (), hp, rfl⟩
    exact (begins_of_held (mem_held_of_opening hu hopen)).of_longer (by simp [exchange])
  | selling seen buy position reason =>
    obtain ⟨u, hu, order, -, ho, rfl⟩ := h
    let closure : Closure := ⟨buy.price, .zero, "", "", buy.executedAt⟩
    exact (begins_of_sale hu ho seen buy closure (.ok ())).of_longer (by simp [exchange])
  | closing seen buy sell position closure =>
    obtain ⟨u, hu, order, ho, rfl⟩ := h
    exact (begins_of_sale hu ho seen sell closure (.ok ())).of_longer (by simp [exchange])
  | recording outcome report =>
    obtain ⟨u, rfl, hu⟩ := h
    exact ⟨.ok outcome, _, hu (.ok ()), by simp [exchange]⟩
  | ended result => exact ⟨result, w, h, List.prefix_rfl⟩
  | crashed fault => exact h

/-! ## The language of a run -/

theorem insertPosition_not_mem_idle (position : Position) (h : w ∈ (idleTick plan)∗) :
    Effect.call (.insertPosition position) ∉ w := by
  obtain ⟨ticks, rfl, hticks⟩ := Language.mem_kstar.mp h
  intro hmem
  obtain ⟨tick, htick, hin⟩ := List.mem_flatten.mp hmem
  rcases hticks tick htick with ⟨answer, rfl⟩ | ⟨seen, order, cause, -, rfl⟩
  · simp [look, exchange] at hin
  · simp [look, exchange] at hin

theorem completed_of_insertPosition {result : Except Fault Outcome} {position : Position}
    (h : w ∈ words plan result) (hw : Effect.call (.insertPosition position) ∈ w) :
    ∃ trade, result = .ok (.completed trade) := by
  -- Without a round trip all ticks of a word are idle, and no such tick stores a position.
  unfold words at h
  split at h
  · obtain ⟨u, hu, v, ⟨report, stored, rfl⟩, rfl⟩ := Language.mem_mul.mp h
    have hidle := insertPosition_not_mem_idle position hu
    simp [exchange, hidle] at hw
  · exact ⟨_, rfl⟩
  · obtain ⟨u, hu, v, ⟨seen, order, sale, limit, reply, -, -, rfl⟩, rfl⟩ := Language.mem_mul.mp h
    have hidle := insertPosition_not_mem_idle position hu
    simp [look, exchange, hidle] at hw
  · exact absurd h (Language.notMem_zero w)

/-- At any time, what has been seen of a run is the beginning of a word, and when the run has
ended it is a whole word of its result. A run that has stored a position ends with a round trip. -/
theorem play_shows_words (plan : Plan) (cancelled : Bool) (now : Moment) (turns : List Turn) :
    (∃ result, ∃ v ∈ words plan result, (play plan cancelled now turns).2 <+: v) ∧
    ∀ result, (play plan cancelled now turns).1.phase = .ended result →
      (play plan cancelled now turns).2 ∈ words plan result ∧
      ∀ position, .call (.insertPosition position) ∈ (play plan cancelled now turns).2 →
        ∃ trade, result = .ok (.completed trade) := by
  have hshows := shows_play plan cancelled now turns
  refine ⟨begins_of_shows hshows, fun result hended => ?_⟩
  rw [hended] at hshows
  exact ⟨hshows, fun position hstored => completed_of_insertPosition hshows hstored⟩

/-! ## One round trip -/

/-- A cancel that comes while the buy is under way, and a sell that fails once. -/
def sampleTurns : List Turn :=
  [⟨false, ⟨0, default⟩, .snapshot (.ok default)⟩,
    ⟨true, ⟨5, default⟩, .order (.ok (sampleFill .buy .one))⟩,
    ⟨true, ⟨5, default⟩, .stored (.error (.store "down"))⟩,
    ⟨true, ⟨255, default⟩, .rested⟩,
    ⟨true, ⟨255, default⟩, .snapshot (.ok default)⟩,
    ⟨true, ⟨260, default⟩, .order (.error (.rpc "503"))⟩,
    ⟨true, ⟨510, default⟩, .rested⟩,
    ⟨true, ⟨510, default⟩, .snapshot (.ok default)⟩,
    ⟨true, ⟨510, default⟩, .order (.ok (sampleFill .sell .hundred))⟩,
    ⟨true, ⟨510, default⟩, .stored (.ok ())⟩,
    ⟨true, ⟨510, default⟩, .stored (.ok ())⟩]

theorem sample_play_is_round_trip :
    ∃ trade, trade.buy = sampleFill .buy .one ∧ trade.sell = sampleFill .sell .hundred ∧
      (play eagerPlan false ⟨0, default⟩ sampleTurns).1.phase = .ended (.ok (.completed trade)) ∧
      (play eagerPlan false ⟨0, default⟩ sampleTurns).2 ∈
        words eagerPlan (.ok (.completed trade)) := by
  have hended : ∃ trade, (play eagerPlan false ⟨0, default⟩ sampleTurns).1.phase =
        .ended (.ok (.completed trade)) ∧ trade.buy = sampleFill .buy .one ∧
      trade.sell = sampleFill .sell .hundred := ⟨_, rfl, rfl, rfl⟩
  obtain ⟨trade, hphase, hbuy, hsell⟩ := hended
  exact ⟨trade, hbuy, hsell, hphase, ((play_shows_words _ _ _ _).2 _ hphase).1⟩

end LaunchDesk.Run
