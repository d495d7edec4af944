import LaunchDesk.Paper.Rules
import LaunchDesk.Proofs.Run.Cancelled
import LaunchDesk.Proofs.Run.Taken
import LaunchDesk.Proofs.Thresholds

/-!
# Watching a position

A run whose strategy goes by the thresholds watches its position from the buy on. It tries to sell
at the first price that meets a rule, with the name of the rule as its reason, and not before.
-/

namespace LaunchDesk

/-- The strategy sells when the thresholds of the position say so, and only then. -/
def Strategy.Delegates (s : Strategy) : Prop :=
  ∀ position seen, s.shouldSell position seen = (Thresholds.triggered position seen.price).map
    fun rule => rule.elim .hold fun rule => .because rule.text

namespace Run

open Thresholds

variable {plan : Plan} {now : Moment} {r : Run} {s : Run × List Effect} {t : Turn}
variable {seen : Snapshot} {buy : Fill} {position opened : Position} {more : List Effect}
variable {rules : Thresholds} {entry : Decimal}

/-! ## Terms -/

def Effect.isSell : Effect → Bool
  | .call (.sell _) => true
  | _ => false

/-- The price that an effect tells the run. -/
def Effect.price? : Effect → Option Decimal
  | .answer (.snapshot (.ok seen)) => some seen.price
  | _ => none

/-- The prices that a run has got to know. -/
def prices (w : List Effect) : List Decimal := w.filterMap Effect.price?

/-- How a run stands with the position that it opened, after `path` has been seen. -/
def Watching (opened : Position) (path : List Decimal) : Phase → Prop
  | .opening _ _ position => position = opened ∧ path = []
  | .resting (.holding _ position) => position = opened.watched path
  | .fetching (.holding _ position) => position = opened.watched path
  | _ => False

/-- No price that was seen meets a rule, and there was no sell. -/
structure HoldsOn (rules : Thresholds) (entry : Decimal) (more : List Effect) : Prop where
  unmet : ∀ k, rules.ruleAt entry (prices more) k = none
  unsold : ∀ e ∈ more, e.isSell = false

/-- The price at the place `k` is the first one to meet a rule, and when it had been seen there was
the first sell, for the reason of that rule. -/
structure SellsAt (rules : Thresholds) (entry : Decimal) (more : List Effect) (k : Nat)
    (rule : Rule) : Prop where
  met : rules.ruleAt entry (prices more) k = some rule
  unmet : ∀ j < k, rules.ruleAt entry (prices more) j = none
  sold : ∃ early order rest, more = early ++ .call (.sell order) :: rest ∧
    (∀ e ∈ early, e.isSell = false) ∧ prices early = (prices more).take (k + 1) ∧
    order.reason = rule.text

theorem prices_append (a b : List Effect) : prices (a ++ b) = prices a ++ prices b :=
  List.filterMap_append

theorem Watching.isOver {path : List Decimal} (h : Watching opened path r.phase) :
    r.isOver = false := by
  unfold Run.isOver
  cases hphase : r.phase with
  | ended result =>
    rw [hphase] at h
    exact h.elim
  | crashed fault =>
    rw [hphase] at h
    exact h.elim
  | _ => rfl

/-! ## What is seen -/

theorem HoldsOn.quiet (h : HoldsOn rules entry more) {quiet : List Effect}
    (hprices : prices quiet = []) (hsells : ∀ e ∈ quiet, e.isSell = false) :
    HoldsOn rules entry (more ++ quiet) where
  unmet := by
    rw [prices_append, hprices, List.append_nil]
    exact h.unmet
  unsold := List.forall_mem_append.mpr ⟨h.unsold, hsells⟩

/-- The answer to a look. -/
def looked (seen : Snapshot) : Effect := .answer (.snapshot (.ok seen))

theorem prices_looked (more : List Effect) (seen : Snapshot) :
    prices (more ++ [looked seen]) = prices more ++ [seen.price] := prices_append _ _

theorem HoldsOn.looks (h : HoldsOn rules entry more)
    (hunmet : rules.ruleAt entry (prices more ++ [seen.price])
      (prices more).length = none) : HoldsOn rules entry (more ++ [looked seen]) where
  unmet k := by
    rw [prices_looked]
    rcases Nat.lt_trichotomy k (prices more).length with hk | rfl | hk
    · exact (ruleAt_append hk _).trans (h.unmet k)
    · exact hunmet
    · refine ruleAt_none ?_
      rw [List.length_append, List.length_singleton]
      exact hk
  unsold := List.forall_mem_append.mpr ⟨h.unsold, List.forall_mem_singleton.mpr rfl⟩

theorem HoldsOn.sells (h : HoldsOn rules entry more) {rule : Rule} {order : SellOrder}
    (hmet : rules.ruleAt entry (prices more ++ [seen.price])
      (prices more).length = some rule) (hreason : order.reason = rule.text) :
    SellsAt rules entry (more ++ [looked seen] ++ [.call (.sell order)])
      (prices more).length rule := by
  have hprices : prices (more ++ [looked seen] ++ [.call (.sell order)]) =
      prices more ++ [seen.price] := by
    rw [prices_append, prices_looked]
    exact List.append_nil _
  refine ⟨?_, ?_, more ++ [looked seen], order, [], rfl, ?_, ?_, hreason⟩
  · rw [hprices]
    exact hmet
  · intro j hj
    rw [hprices]
    exact (ruleAt_append hj _).trans (h.unmet j)
  · exact List.forall_mem_append.mpr ⟨h.unsold, List.forall_mem_singleton.mpr rfl⟩
  · rw [hprices, prices_looked, List.take_of_length_le (by simp)]

/-- Nothing that comes later changes which sell was the first. -/
theorem SellsAt.append {k : Nat} {rule : Rule} (h : SellsAt rules entry more k rule)
    (later : List Effect) : SellsAt rules entry (more ++ later) k rule := by
  have hk : k < (prices more).length := by
    by_contra hbeyond
    have hnone : rules.ruleAt entry (prices more) k = none :=
      ruleAt_none (Nat.le_of_not_lt hbeyond)
    rw [h.met] at hnone
    cases hnone
  obtain ⟨early, order, rest, rfl, hearly, hprices, hreason⟩ := h.sold
  refine ⟨?_, ?_, early, order, rest ++ later, by simp, hearly, ?_, hreason⟩
  · rw [prices_append, ruleAt_append hk]
    exact h.met
  · intro j hj
    rw [prices_append, ruleAt_append (hj.trans hk)]
    exact h.unmet j hj
  · rw [prices_append _ later, List.take_append_of_le_length hk]
    exact hprices

/-! ## One turn -/

/-- A run that watches the position `opened` goes on watching, or there has been the first sell. -/
def Watches (opened : Position) (phase : Phase) (more : List Effect) : Prop :=
  Watching opened (prices more) phase ∧ HoldsOn opened.thresholds opened.entryPrice more ∨
    ∃ k rule, SellsAt opened.thresholds opened.entryPrice more k rule

/-- What is seen in a turn. -/
def seenIn (plan : Plan) (r : Run) (t : Turn) : List Effect :=
  Effect.ofReply t.reply ++ effects plan (resume plan t.cancelled t.now r t.reply)

theorem prices_effects (plan : Plan) (p : Progress) : prices (effects plan p) = [] := by
  refine List.filterMap_eq_nil_iff.mpr fun e he => ?_
  rcases List.mem_append.mp he with hnotice | hcall
  · obtain ⟨notice, -, hin⟩ := List.mem_flatMap.mp hnotice
    cases notice with
    | log line => cases hin
    | publish event =>
      obtain rfl := List.mem_singleton.mp hin
      rfl
  · cases hrequest : p.1.request? plan with
    | none =>
      rw [hrequest] at hcall
      cases hcall
    | some request =>
      rw [hrequest] at hcall
      cases request with
      | rest ms => cases hcall
      | _ =>
        obtain rfl := List.mem_singleton.mp hcall
        rfl

theorem unsold_effects {path : List Decimal} {p : Progress}
    (h : Watching opened path p.1.phase) : ∀ e ∈ effects plan p, e.isSell = false := by
  refine not_isCall_of_mem_effects (fun _ => rfl) ?_
  rw [request?]
  cases hphase : p.1.phase with
  | selling seen buy position reason =>
    rw [hphase] at h
    exact h.elim
  | _ => rfl

theorem watches_quiet {p : Progress} {reply : Reply}
    (hholds : HoldsOn opened.thresholds opened.entryPrice more)
    (hquiet : prices (Effect.ofReply reply) = [])
    (hwatching : Watching opened (prices more) p.1.phase) :
    Watches opened p.1.phase (more ++ (Effect.ofReply reply ++ effects plan p)) := by
  have hprices : prices (Effect.ofReply reply ++ effects plan p) = [] := by
    rw [prices_append, hquiet, prices_effects, List.append_nil]
  have hreply : ∀ e ∈ Effect.ofReply reply, e.isSell = false := by
    cases reply <;> simp [Effect.ofReply, Effect.isSell]
  refine .inl ⟨?_, hholds.quiet hprices
    (List.forall_mem_append.mpr ⟨hreply, unsold_effects hwatching⟩)⟩
  rwa [prices_append, hprices, List.append_nil]

section Rules

variable (hdelegates : plan.strategy.Delegates) (hopened : opened.peakPrice = opened.entryPrice)
  (hentry : 0 < opened.entryPrice.value)

include hdelegates

theorem watch_holds (now : Moment) (r : Run) (buy : Fill)
    (hrule : triggered (position.observe seen.price) seen.price = .ok none) :
    let next := watch plan false now r seen buy position
    next.1.phase = .resting (.holding buy (position.observe seen.price)) ∧
      effects plan next = [] := by
  have hdecision := hdelegates (position.observe seen.price) seen
  rw [hrule] at hdecision
  simp only [watch, hdecision, Except.map, Option.elim, SellDecision.hold, Bool.false_eq_true,
    if_false]
  split <;> exact ⟨rfl, rfl⟩

theorem watch_sells (now : Moment) (r : Run) (buy : Fill) {rule : Rule} {change : Decimal}
    (hchange : (position.observe seen.price).changePercent seen.price = .ok change)
    (hrule : triggered (position.observe seen.price) seen.price = .ok (some rule)) :
    ∃ order, order.reason = rule.text ∧
      effects plan (watch plan false now r seen buy position) = [.call (.sell order)] := by
  have hdecision := hdelegates (position.observe seen.price) seen
  rw [hrule] at hdecision
  simp only [watch, hdecision, Except.map, Option.elim, SellDecision.because,
    SellDecision.reasonOr, if_true, trySell, hchange]
  exact ⟨_, rfl, rfl⟩

include hopened hentry

theorem watches_look (now : Moment) (r : Run) (buy : Fill)
    (hexact : opened.ExactUntilRule (prices more ++ [seen.price]))
    (hholds : HoldsOn opened.thresholds opened.entryPrice more) :
    Watches opened (watch plan false now r seen buy (opened.watched (prices more))).1.phase
      (more ++ [looked seen] ++
        effects plan (watch plan false now r seen buy (opened.watched (prices more)))) := by
  have hnow := hexact.last hholds.unmet
  have hrule := Position.triggered_watched hopened hentry hnow
  obtain ⟨⟨change, hchange, -⟩, -⟩ := hnow
  rw [Position.watched_snoc] at hrule hchange
  cases hmet : opened.thresholds.ruleAt opened.entryPrice (prices more ++ [seen.price])
      (prices more).length with
  | none =>
    rw [hmet] at hrule
    obtain ⟨hphase, heffects⟩ := watch_holds hdelegates now r buy hrule
    rw [heffects, List.append_nil]
    refine .inl ⟨?_, hholds.looks hmet⟩
    rw [hphase, prices_looked, Watching, Position.watched_snoc]
  | some rule =>
    rw [hmet] at hrule
    obtain ⟨order, hreason, heffects⟩ := watch_sells hdelegates now r buy hchange hrule
    rw [heffects]
    exact .inr ⟨_, rule, hholds.sells hmet hreason⟩

/-- The turns that reach a run without a sell so far: the position is stored, a pause ends, the
market cannot be looked at, or it can. -/
theorem watches_resume (hwatching : Watching opened (prices more) r.phase)
    (hholds : HoldsOn opened.thresholds opened.entryPrice more)
    (hcancelled : t.cancelled = false)
    (hreply : (r.request? plan).any (·.awaits t.reply) = true)
    (hexact : opened.ExactUntilRule (prices (more ++ seenIn plan r t))) :
    Watches opened (resume plan t.cancelled t.now r t.reply).1.phase (more ++ seenIn plan r t) := by
  have hawaits := awaits_of_request hreply
  obtain ⟨cancelled, now, reply⟩ := t
  obtain ⟨tick, startMs, entries, phase⟩ := r
  cases hcancelled
  cases hawaits with
  | opened seen buy position answer =>
    obtain ⟨rfl, hpath⟩ := hwatching
    refine watches_quiet hholds rfl ?_
    rw [hpath]
    exact rfl
  | rested stance =>
    cases stance with
    | holding buy position => exact watches_quiet hholds rfl hwatching
    | _ => exact hwatching.elim
  | unseen stance fault =>
    cases stance with
    | holding buy position =>
      obtain rfl := hwatching
      exact watches_quiet hholds rfl rfl
    | _ => exact hwatching.elim
  | seen stance seen =>
    cases stance with
    | holding buy position =>
      obtain rfl := hwatching
      let waiting : Run :=
        ⟨tick, startMs, entries, .fetching (.holding buy (opened.watched (prices more)))⟩
      have hprices : prices (more ++ seenIn plan waiting ⟨false, now, .snapshot (.ok seen)⟩) =
          prices more ++ [seen.price] := by
        rw [seenIn, prices_append, prices_append, prices_effects, List.append_nil]
        rfl
      have hlook := watches_look hdelegates hopened hentry now waiting buy (hprices ▸ hexact)
        hholds
      rwa [List.append_assoc] at hlook
    | _ => exact hwatching.elim
  | _ => exact hwatching.elim

/-- What a run that has opened a position does while nobody cancels it, if `w` had been seen
before. -/
def Obeys (opened : Position) (w : List Effect) (u : Run × List Effect) (turns : List Turn) :
    Prop :=
  (∀ v ∈ turns, v.cancelled = false) → ∃ more, u.2 = w ++ more ∧
    (opened.ExactUntilRule (prices more) → Watches opened u.1.phase more)

theorem obeys_take {w : List Effect} {turns : List Turn} (h : Obeys opened w s turns)
    (hawaits : awaits plan s t = true) :
    Obeys opened w (takeTurn plan s t) (turns ++ [t]) := by
  intro hcancelled
  rw [List.forall_mem_append, List.forall_mem_singleton] at hcancelled
  obtain ⟨more, hmore, hwatches⟩ := h hcancelled.1
  rw [takeTurn_awaited hawaits]
  refine ⟨more ++ seenIn plan s.1 t, ?_, ?_⟩
  · simp only [hmore, seenIn, List.append_assoc]
  · intro hexact
    have hbefore : opened.ExactUntilRule (prices more) := by
      rw [prices_append] at hexact
      exact hexact.before
    rcases hwatches hbefore with ⟨hwatching, hholds⟩ | ⟨k, rule, hsells⟩
    · exact watches_resume hdelegates hopened hentry hwatching hholds hcancelled.2 hawaits hexact
    · exact .inr ⟨k, rule, hsells.append _⟩

end Rules

theorem opens_position (hbuying : s.1.phase = .buying seen) (hfill : t.reply = .order (.ok buy)) :
    (takeTurn plan s t).1.phase = .opening seen buy (openPosition plan seen buy) := by
  have hawaits : awaits plan s t = true := by
    rw [awaits, request?, hbuying, hfill]
    rfl
  rw [takeTurn_awaited hawaits, hfill]
  simp only [resume, hbuying]
  rfl

/-- The strategy of a run goes by the thresholds, and the run has bought at a positive price. In any
turns that come then without a cancel, and with percentages that are exact, there is no sell as long
as no price that was seen meets a rule, and the run goes on; and the first sell comes right after
the first price that meets one, with the first rule that it meets as the reason. -/
theorem first_sell_follows_rules (plan : Plan) (cancelled : Bool) (now : Moment)
    (before : List Turn) (t : Turn) (hdelegates : plan.strategy.Delegates)
    (hbuying : (play plan cancelled now before).1.phase = .buying seen)
    (hfill : t.reply = .order (.ok buy)) (hprice : 0 < buy.price.value) (later : List Turn)
    (hcancelled : ∀ v ∈ later, v.cancelled = false)
    (hexact : (openPosition plan seen buy).ExactUntilRule
      (prices (seenSince plan cancelled now (before ++ [t]) later))) :
    let more := seenSince plan cancelled now (before ++ [t]) later
    let rules := plan.strategy.exitThresholds seen
    HoldsOn rules buy.price more ∧
        (play plan cancelled now (before ++ [t] ++ later)).1.isOver = false ∨
      ∃ k rule, SellsAt rules buy.price more k rule := by
  intro more rules
  let opened := openPosition plan seen buy
  let s := play plan cancelled now (before ++ [t])
  have hphase : s.1.phase = .opening seen buy opened := by
    rw [show s = takeTurn plan (play plan cancelled now before) t from play_snoc ..]
    exact opens_position hbuying hfill
  have hstart : Obeys opened s.2 s [] := by
    intro _
    refine ⟨[], (List.append_nil _).symm, fun _ => .inl ⟨?_, ?_, List.forall_mem_nil _⟩⟩
    · rw [hphase]
      exact ⟨rfl, rfl⟩
    · exact fun k => ruleAt_none (Nat.zero_le k)
  have hobeys := taken_induction (P := Obeys opened s.2) hstart
    (fun u ts v h hawaits => obeys_take hdelegates rfl hprice h hawaits) later
  rw [← play_append] at hobeys
  obtain ⟨seen, hseen, hwatches⟩ := hobeys fun v hv => hcancelled v (mem_of_mem_taken later hv)
  have hmore := play_seen plan cancelled now (before ++ [t]) later
  obtain rfl : seen = more := List.append_cancel_left (hseen.symm.trans hmore)
  rcases hwatches hexact with ⟨hwatching, hholds⟩ | hsells
  · exact .inl ⟨hholds, hwatching.isOver⟩
  · exact .inr hsells

/-- A strategy of paper goes by the thresholds if it is told to and has no price for selling. -/
theorem rules_delegate (rules : Paper.Rules) (hprice : rules.sellAt = none)
    (huse : rules.useThresholds = true) : rules.strategy.Delegates := by
  intro position seen
  unfold Paper.Rules.strategy
  split <;> simp [Paper.Rules.shouldSell, hprice, huse]

/-- Buys at once, and sells when the price has fallen by a tenth from its peak. -/
def trailingRules : Paper.Rules where
  buyAt := some .zero
  useThresholds := true
  extras := some (Thresholds.withTrailingStop {} (.ofSmall 10 0), .null)

def trailingPlan : Plan := { eagerPlan with strategy := trailingRules.strategy }

/-- After the buy the market is not seen once. Then the price rises to 1.2, and falls to 1.05. -/
def fallingTurns : List Turn :=
  [⟨false, ⟨0, default⟩, .stored (.ok ())⟩,
    ⟨false, ⟨250, default⟩, .rested⟩,
    ⟨false, ⟨250, default⟩, .snapshot (.error (.store "down"))⟩,
    ⟨false, ⟨500, default⟩, .rested⟩,
    ⟨false, ⟨500, default⟩, .snapshot (.ok { (default : Snapshot) with price := .ofSmall 12 1 })⟩,
    ⟨false, ⟨750, default⟩, .rested⟩,
    ⟨false, ⟨750, default⟩, .snapshot (.ok { (default : Snapshot) with price := .ofSmall 105 2 })⟩]

theorem falling_price_is_sold :
    let look : Turn := ⟨false, ⟨0, default⟩, .snapshot (.ok default)⟩
    let fill : Turn := ⟨false, ⟨0, default⟩, .order (.ok (sampleFill .buy .one))⟩
    let more := seenSince trailingPlan false ⟨0, default⟩ ([look] ++ [fill]) fallingTurns
    prices more = [.ofSmall 12 1, .ofSmall 105 2] ∧
      SellsAt (trailingPlan.strategy.exitThresholds default) .one more 1 .trailingStop := by
  intro look fill more
  have hprices : prices more = [.ofSmall 12 1, .ofSmall 105 2] := by decide +kernel
  have hrise : (trailingPlan.strategy.exitThresholds default).ruleAt .one (prices more) 0 =
      none := by decide +kernel
  have hfall : (trailingPlan.strategy.exitThresholds default).ruleAt .one (prices more) 1 =
      some .trailingStop := by decide +kernel
  let opened := openPosition trailingPlan default (sampleFill .buy .one)
  have hexact : opened.ExactUntilRule (prices more) := by
    rw [hprices]
    intro k price hprice _
    match k with
    | 0 =>
      cases hprice
      refine ⟨⟨.ofSmall 200 1, ?_, ?_⟩, fun _ _ _ _ => ⟨.zero, ?_, ?_⟩⟩ <;> decide +kernel
    | 1 =>
      cases hprice
      refine ⟨⟨.ofSmall 500 2, ?_, ?_⟩, fun _ _ _ _ => ⟨.ofSmall 12500 3, ?_, ?_⟩⟩ <;>
        decide +kernel
    | k + 2 => cases hprice
  refine ⟨hprices, ?_⟩
  have hdelegates : trailingPlan.strategy.Delegates :=
    rules_delegate trailingRules rfl rfl
  rcases first_sell_follows_rules trailingPlan false ⟨0, default⟩ [look] fill hdelegates rfl rfl
    (by decide +kernel) fallingTurns (by simp [fallingTurns]) hexact with
    ⟨hholds, -⟩ | ⟨k, rule, hsells⟩
  · cases (hholds.unmet 1).symm.trans hfall
  · rcases Nat.lt_trichotomy k 1 with hk | rfl | hk
    · obtain rfl := Nat.lt_one_iff.mp hk
      cases hsells.met.symm.trans hrise
    · cases hsells.met.symm.trans hfall
      exact hsells
    · cases (hsells.unmet 1 hk).symm.trans hfall

end Run

end LaunchDesk
