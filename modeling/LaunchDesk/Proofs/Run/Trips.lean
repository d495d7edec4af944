import LaunchDesk.Proofs.Run.Diary
import LaunchDesk.Proofs.Run.Transitions

/-!
# What a run tells of its trade

The result of a trade is computed twice: from the cost of the position when it is closed, and from
the buy when the outcome is put together. Both are told, along with the two fills. `Settles` says
what has been told when a run comes to the end of a trade.
-/

open Computability

namespace LaunchDesk.Run

variable {plan : Plan} {cancelled : Bool} {now : Moment} {r : Run} {w : List Effect}

/-- What goes to the bus and to the two stores. -/
def Effect.isTold : Effect → Bool
  | .publish _ => true
  | .call (.insertPosition _) => true
  | .call (.closePosition _ _) => true
  | .call (.insertOutcome _ _) => true
  | _ => false

def told (w : List Effect) : List Effect := w.filter Effect.isTold

@[simp] theorem told_append (w v : List Effect) : told (w ++ v) = told w ++ told v :=
  List.filter_append ..

@[simp] theorem told_ofReply (reply : Reply) : told (Effect.ofReply reply) = [] := by
  cases reply <;> rfl

/-! ## The words -/

theorem told_kstar {l : Language Effect} (hl : ∀ tick ∈ l, told tick = []) (h : w ∈ l∗) :
    told w = [] := by
  obtain ⟨ticks, rfl, hticks⟩ := Language.mem_kstar.mp h
  rw [told, List.filter_flatten, List.flatten_eq_nil_iff]
  intro kept hkept
  obtain ⟨tick, htick, rfl⟩ := List.mem_map.mp hkept
  exact hl tick (hticks tick htick)

theorem told_idle (h : w ∈ (idleTick plan)∗) : told w = [] := by
  refine told_kstar (fun tick htick => ?_) h
  rcases htick with ⟨answer, rfl⟩ | ⟨seen, order, cause, -, rfl⟩ <;> rfl

theorem told_holdTicks {buy : Fill} (h : w ∈ (holdTick buy)∗) : told w = [] := by
  refine told_kstar (fun tick htick => ?_) h
  rcases htick with ⟨answer, rfl⟩ | ⟨seen, order, cause, -, rfl⟩ <;> rfl

theorem told_held {buy : Fill} (h : w ∈ held plan buy) : ∃ position, IsOf plan.botId buy position ∧
    told w = [.call (.insertPosition position), .publish (.trade plan.botId buy)] := by
  obtain ⟨u, hu, ticks, hticks, rfl⟩ := Language.mem_mul.mp h
  obtain ⟨idle, hidle, tick, ⟨seen, order, position, stored, hp, rfl⟩, rfl⟩ :=
    Language.mem_mul.mp hu
  refine ⟨position, hp, ?_⟩
  simp only [told_append, told_idle hidle, told_holdTicks hticks]
  rfl

/-! ## The end of a trade -/

/-- The closure has what the two fills of a trade make of it. -/
structure Closes (buy sell : Fill) (closure : Closure) : Prop where
  exitPrice : closure.exitPrice = sell.price
  signature : closure.signature = sell.signature
  closedAt : closure.closedAt = sell.executedAt
  pnl : sell.netAmount.sub buy.netAmount = .ok closure.realizedPnl

/-- A trade and all that is stored about it have the same result, and it is the difference of the
net amounts of the fills. -/
structure Agrees (trade : RoundTrip) (closure : Closure) (report : Report) : Prop where
  closes : Closes trade.buy trade.sell closure
  pnl : trade.realizedPnl = closure.realizedPnl
  report : report.realizedPnl = closure.realizedPnl
  reason : trade.sellReason = closure.reason

/-- All that a run tells of its trade, in order. -/
def tripTold (bot : BotId) (position : Position) (trade : RoundTrip) (closure : Closure)
    (report : Report) : List Effect :=
  [.call (.insertPosition position), .publish (.trade bot trade.buy),
    .call (.closePosition trade.buy.id closure), .publish (.trade bot trade.sell),
    .publish (.cycle bot (.completed trade)), .call (.insertOutcome (.completed trade) report)]

/-- What has been told of a trade from its sell on. -/
def Settles (plan : Plan) : Phase → List Effect → Prop
  | .closing _ buy sell _ closure, w => Closes buy sell closure ∧
      ∃ position, IsOf plan.botId buy position ∧
        w = [.call (.insertPosition position), .publish (.trade plan.botId buy),
          .call (.closePosition buy.id closure)]
  | .recording (.completed trade) report, w => ∃ position closure,
      IsOf plan.botId trade.buy position ∧ Agrees trade closure report ∧
      w = tripTold plan.botId position trade closure report
  | .ended (.ok (.completed trade)), w => ∃ position closure report,
      IsOf plan.botId trade.buy position ∧ Agrees trade closure report ∧
      w = tripTold plan.botId position trade closure report
  | _, _ => True

/-- The position that was carried along still has the cost of the buy. -/
theorem closes_of_closureOf {bot : BotId} {buy sell : Fill} {position : Position} {reason : String}
    {closure : Closure} (hp : IsOf bot buy position)
    (h : closureOf position sell reason = .ok closure) : Closes buy sell closure := by
  unfold closureOf at h
  cases hpnl : sell.netAmount.sub position.cost with
  | error fault =>
    rw [hpnl] at h
    cases h
  | ok pnl =>
    rw [hpnl] at h
    cases h
    rw [hp.2.2.2.2.2] at hpnl
    exact ⟨rfl, rfl, rfl, hpnl⟩

theorem Closes.pnl_eq {buy sell : Fill} {closure : Closure} {pnl : Decimal}
    (h : Closes buy sell closure) (hpnl : sell.netAmount.sub buy.netAmount = .ok pnl) :
    pnl = closure.realizedPnl := by
  rw [h.pnl] at hpnl
  cases hpnl
  rfl

/-! ## One step -/

theorem settles_sold {buy sell : Fill} {position : Position} {reason : String} {seen : Snapshot}
    (h : Shows plan (.selling seen buy position reason) w) :
    Settles plan (sold r seen buy sell position reason).1.phase
      (told w ++ told (effects plan (sold r seen buy sell position reason))) := by
  obtain ⟨u, hu, order, hp, -, rfl⟩ := h
  obtain ⟨first, hfirst, htold⟩ := told_held hu
  unfold sold
  cases hclosure : closureOf position sell reason with
  | error fault => trivial
  | ok closure =>
    refine ⟨closes_of_closureOf hp hclosure, first, hfirst, ?_⟩
    simp only [told_append, htold, ← hp.1]
    rfl

theorem settles_closed {buy sell : Fill} {position : Position} {closure : Closure}
    {seen : Snapshot} (h : Settles plan (.closing seen buy sell position closure) w)
    (stored : Except Fault Unit) :
    Settles plan (closed plan now r seen buy sell closure stored).1.phase
      (w ++ told (effects plan (closed plan now r seen buy sell closure stored))) := by
  obtain ⟨hcloses, first, hfirst, rfl⟩ := h
  rw [closed, effects_after, List.flatMap_append, storeWarning_effects]
  split
  · trivial
  · next outcome hfills =>
    obtain ⟨trade, rfl, rfl, rfl, hpnl⟩ := ofFills_eq_ok hfills
    obtain ⟨same, hsame, hreason, -⟩ := ofFills_tells hfills
    cases hsame
    have heq := hcloses.pnl_eq hpnl
    exact ⟨first, closure, hfirst, ⟨hcloses, heq, heq, hreason⟩, rfl⟩

theorem settles_recorded {outcome : Outcome} {report : Report}
    (h : Settles plan (.recording outcome report) w) (stored : Except Fault Unit) :
    Settles plan (.ended (.ok outcome)) (w ++ told (effects plan (r.enter (.ended (.ok outcome)),
      storeWarning plan "Failed to persist trade outcome" stored))) := by
  cases outcome with
  | exited departure => trivial
  | completed trade =>
    obtain ⟨position, closure, hp, hagrees, rfl⟩ := h
    refine ⟨position, closure, report, hp, hagrees, ?_⟩
    rw [effects, storeWarning_effects]
    rfl

theorem not_trade_of_untold {p : Progress} {trade : RoundTrip} {report : Report}
    (hw : told w = []) (hphase : p.1.phase = .recording (.completed trade) report) :
    ¬ Shows plan p.1.phase (w ++ effects plan p) := by
  intro h
  rw [hphase] at h
  obtain ⟨u, hu, hwords⟩ := h
  -- The word of a trade has the position in it, and so has the part of it that was seen.
  obtain ⟨first, hfirst, rest, -, hword⟩ := Language.mem_mul.mp (hwords (.ok ()))
  obtain ⟨position, -, htold⟩ := told_held hfirst
  have hseen : told (w ++ effects plan p) = told first ++ told rest := by
    rw [hu, ← told_append, hword, told_append, told_append]
    rfl
  have hmem : .call (.insertPosition position) ∈ told (effects plan p) := by
    rw [← List.nil_append (told (effects plan p)), ← hw, ← told_append, hseen, htold]
    simp
  have hrequest := request_of_mem_effects (List.mem_filter.mp hmem).1
  simp [request?, hphase] at hrequest

/-- Everything but a sell and the calls that follow from it. -/
def Phase.isEarly : Phase → Bool
  | .selling _ _ _ _ => false
  | .closing _ _ _ _ _ => false
  | .recording _ _ => false
  | _ => true

theorem untold_of_leaves {phase : Phase} {outcome : Outcome} {report : Report}
    (hearly : phase.isEarly = true) (hshows : Shows plan phase w)
    (hleads : phase.leadsTo cancelled (.recording outcome report) = true) : told w = [] := by
  cases phase with
  | fetching stance =>
    obtain ⟨u, hu, rfl⟩ := hshows
    cases stance with
    | holding buy position => cases hleads
    | _ =>
      rw [told_append, told_idle hu]
      rfl
  | resting stance =>
    cases stance with
    | holding buy position => cases hleads
    | _ => exact told_idle hshows
  | closing seen buy sell position closure => cases hearly
  | _ => cases hleads

theorem settles_early {phase : Phase} {reply : Reply} {p : Progress}
    (hearly : phase.isEarly = true) (hshows : Shows plan phase w)
    (hleads : phase.leadsTo cancelled p.1.phase = true)
    (hgoes : GoesOn plan (w ++ Effect.ofReply reply) p) :
    Settles plan p.1.phase (told w ++ told (effects plan p)) := by
  -- From an early phase no edge leads to settling or to an end, and an outcome is then a departure.
  cases hnext : p.1.phase with
  | closing seen buy sell position closure =>
    rw [hnext] at hleads
    cases phase with
    | selling seen buy position reason => cases hearly
    | fetching stance => cases stance <;> cases hleads
    | resting stance => cases stance <;> cases hleads
    | _ => cases hleads
  | ended result =>
    cases result with
    | error fault => trivial
    | ok outcome =>
      rw [hnext] at hleads
      cases phase with
      | recording outcome report => cases hearly
      | fetching stance => cases stance <;> cases hleads
      | resting stance => cases stance <;> cases hleads
      | _ => cases hleads
  | recording outcome report =>
    cases outcome with
    | exited departure => trivial
    | completed trade =>
      rw [hnext] at hleads
      have huntold : told (w ++ Effect.ofReply reply) = [] := by
        rw [told_append, untold_of_leaves hearly hshows hleads, told_ofReply, List.append_nil]
      exact absurd hgoes (not_trade_of_untold huntold hnext)
  | _ => trivial

/-- The invariant is kept by every reply that the run waits for. -/
theorem settles_resume {reply : Reply} (hshows : Shows plan r.phase w)
    (hsettles : Settles plan r.phase (told w))
    (ha : (r.request? plan).any (·.awaits reply) = true) :
    Settles plan (resume plan cancelled now r reply).1.phase
      (told w ++ told (effects plan (resume plan cancelled now r reply))) := by
  -- Before the sell nothing of a trip has been told that `Settles` speaks of.
  cases hearly : r.phase.isEarly with
  | true =>
    exact settles_early hearly hshows (leadsTo_resume ha) (goesOn_resume cancelled hshows ha)
  | false =>
    have hawaits := awaits_of_request ha
    obtain ⟨tick, startMs, entries, phase⟩ := r
    cases hawaits with
    | sold seen buy position reason sell => exact settles_sold hshows
    | unsold seen buy position reason cause => trivial
    | closed seen buy sell position closure answer => exact settles_closed hsettles answer
    | recorded outcome report answer => exact settles_recorded hsettles answer
    | _ => cases hearly

/-! ## Whole runs -/

theorem settles_start : Settles plan (start plan cancelled now).1.phase
    (told (effects plan (start plan cancelled now))) := by
  cases cancelled <;> trivial

theorem settles_play (plan : Plan) (cancelled : Bool) (now : Moment) (turns : List Turn) :
    Settles plan (play plan cancelled now turns).1.phase
      (told (play plan cancelled now turns).2) := by
  induction turns using List.reverseRecOn with
  | nil => exact settles_start
  | append_singleton turns t ih =>
    rw [play_snoc]
    unfold takeTurn
    split
    · next ha =>
      rw [told_append, told_append, told_ofReply, List.append_nil]
      exact settles_resume (shows_play plan cancelled now turns) ih ha
    · exact ih

/-- A run that ends with a trade has told of it once, to the bus and to each of the stores: the two
fills, the position of the buy, the closure of the sell, and the trade itself, which is also its
result. The closure, the report and the trade have the same gain, and it is the difference of the
net amounts of the two fills. -/
theorem trade_told_once (plan : Plan) (cancelled : Bool) (now : Moment) (turns : List Turn)
    {trade : RoundTrip}
    (hended : (play plan cancelled now turns).1.phase = .ended (.ok (.completed trade))) :
    ∃ position closure report, IsOf plan.botId trade.buy position ∧
      Agrees trade closure report ∧
      told (play plan cancelled now turns).2 =
        tripTold plan.botId position trade closure report := by
  have hsettles := settles_play plan cancelled now turns
  rwa [hended] at hsettles

theorem rocky_trade_told_once : ∃ trade : RoundTrip,
    (play eagerPlan false ⟨0, default⟩ rockyTurns).1.phase = .ended (.ok (.completed trade)) ∧
      Decimal.hundred.sub .one = .ok trade.realizedPnl ∧
      ∃ position closure report, Agrees trade closure report ∧
        told (play eagerPlan false ⟨0, default⟩ rockyTurns).2 =
          tripTold eagerPlan.botId position trade closure report := by
  have hended : ∃ trade : RoundTrip, (play eagerPlan false ⟨0, default⟩ rockyTurns).1.phase =
      .ended (.ok (.completed trade)) ∧
      Decimal.hundred.sub .one = .ok trade.realizedPnl := ⟨_, rfl, rfl⟩
  obtain ⟨trade, hphase, hpnl⟩ := hended
  obtain ⟨position, closure, report, -, hagrees, htold⟩ :=
    trade_told_once eagerPlan false ⟨0, default⟩ rockyTurns hphase
  exact ⟨trade, hphase, hpnl, position, closure, report, hagrees, htold⟩

end LaunchDesk.Run
