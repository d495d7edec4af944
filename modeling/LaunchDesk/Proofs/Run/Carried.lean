import LaunchDesk.Proofs.Run.Watching

/-!
# The position that the strategy is shown

A run carries the position that it has opened from look to look, past looks that fail, prices at
which it holds on, exit signals and sells that fail. Only the peak changes, and only with the prices
that the run sees: whenever the strategy is asked, it is asked about the position that was stored,
with the highest price since the buy.
-/

namespace LaunchDesk

namespace Run

variable {plan : Plan} {now : Moment} {r : Run} {s : Run × List Effect} {t : Turn}
variable {seen look : Snapshot} {buy : Fill} {position opened : Position} {path : List Decimal}
variable {stance : Stance}

/-- How a run stands that opened a position and has seen the prices `path` since: it has this
position with these prices observed, or it has no position any more. -/
def Carrying (opened : Position) (path : List Decimal) : Phase → Prop
  | .fetching (.holding _ position) => position = opened.watched path
  | .resting (.holding _ position) => position = opened.watched path
  | .opening _ _ position => position = opened ∧ path = []
  | .selling _ _ position _ => position = opened.watched path
  | .fetching _ => False
  | .resting _ => False
  | .buying _ => False
  | .salvaging _ _ => False
  | _ => True

/-! ## One turn -/

theorem Carrying.quiet {phase : Phase} {reply : Reply} (h : Carrying opened path phase)
    (hquiet : prices (Effect.ofReply reply) = []) :
    Carrying opened (path ++ prices (Effect.ofReply reply)) phase := by
  rwa [hquiet, List.append_nil]

theorem carrying_trySell (hposition : position = opened.watched path) (reason : String) :
    Carrying opened path (trySell plan now r seen buy position reason).1.phase := by
  unfold trySell
  split
  · trivial
  · exact hposition

theorem carrying_watch (cancelled : Bool) (hposition : position = opened.watched path) :
    Carrying opened (path ++ [seen.price])
      (watch plan cancelled now r seen buy position).1.phase := by
  have hobserved : position.observe seen.price = opened.watched (path ++ [seen.price]) := by
    rw [Position.watched_snoc, hposition]
  simp only [watch]
  split
  · trivial
  split
  · exact carrying_trySell hobserved _
  split
  · exact carrying_trySell hobserved _
  split
  · exact hobserved
  · exact hobserved

theorem carrying_sold (sell : Fill) (reason : String) :
    Carrying opened path (sold r seen buy sell position reason).1.phase := by
  unfold sold
  split <;> trivial

theorem carrying_closed (sell : Fill) (closure : Closure) (stored : Except Fault Unit) :
    Carrying opened path (closed plan now r seen buy sell closure stored).1.phase := by
  simp only [closed, after]
  split <;> trivial

/-- A reply changes the position of a run no more than the prices in it do. -/
theorem carrying_resume (hcarrying : Carrying opened path r.phase)
    (hreply : (r.request? plan).any (·.awaits t.reply) = true) :
    Carrying opened (path ++ prices (Effect.ofReply t.reply))
      (resume plan t.cancelled t.now r t.reply).1.phase := by
  have hawaits := awaits_of_request hreply
  obtain ⟨cancelled, now, reply⟩ := t
  obtain ⟨tick, startMs, entries, phase⟩ := r
  cases hawaits with
  | seen stance seen =>
    cases stance with
    | holding buy position => exact carrying_watch cancelled hcarrying
    | _ => exact hcarrying.elim
  | unseen stance fault =>
    cases stance with
    | holding buy position => exact Carrying.quiet hcarrying rfl
    | _ => exact hcarrying.elim
  | rested stance =>
    cases stance with
    | holding buy position => exact Carrying.quiet hcarrying rfl
    | _ => exact hcarrying.elim
  | opened seen buy position answer =>
    obtain ⟨rfl, rfl⟩ := hcarrying
    exact rfl
  | sold seen buy position reason sell => exact carrying_sold sell reason
  | unsold seen buy position reason cause => exact Carrying.quiet hcarrying rfl
  | closed seen buy sell position closure answer => exact carrying_closed sell closure answer
  | recorded outcome report answer => exact trivial
  | _ => exact hcarrying.elim

/-! ## All turns -/

/-- A run that has opened a position after `w` had been seen has come to `u`. -/
def Carried (opened : Position) (w : List Effect) (u : Run × List Effect) : Prop :=
  ∃ more, u.2 = w ++ more ∧ Carrying opened (prices more) u.1.phase

theorem prices_seenIn (plan : Plan) (r : Run) (t : Turn) :
    prices (seenIn plan r t) = prices (Effect.ofReply t.reply) := by
  rw [seenIn, prices_append, prices_effects, List.append_nil]

theorem Carried.take {w : List Effect} (h : Carried opened w s) (hawaits : awaits plan s t = true) :
    Carried opened w (takeTurn plan s t) := by
  obtain ⟨more, hmore, hcarrying⟩ := h
  have hnext := carrying_resume hcarrying hawaits
  rw [takeTurn_awaited hawaits]
  refine ⟨more ++ seenIn plan s.1 t, ?_, ?_⟩
  · simp only [hmore, seenIn, List.append_assoc]
  · rwa [prices_append, prices_seenIn]

theorem seenSince_snoc {cancelled : Bool} {before later : List Turn}
    (hawaits : awaits plan (play plan cancelled now (before ++ later)) t = true) :
    seenSince plan cancelled now before (later ++ [t]) =
      seenSince plan cancelled now before later ++
        seenIn plan (play plan cancelled now (before ++ later)).1 t := by
  have hlater := play_seen plan cancelled now before (later ++ [t])
  rw [← List.append_assoc, play_snoc, takeTurn_awaited hawaits, play_seen, List.append_assoc,
    List.append_assoc] at hlater
  exact (List.append_cancel_left hlater).symm

theorem carried_play (plan : Plan) (cancelled : Bool) (now : Moment) (before : List Turn)
    (hbuying : (play plan cancelled now before).1.phase = .buying seen)
    (hfill : t.reply = .order (.ok buy)) (later : List Turn) :
    Carrying (openPosition plan seen buy)
      (prices (seenSince plan cancelled now (before ++ [t]) later))
      (play plan cancelled now (before ++ [t] ++ later)).1.phase := by
  let opened := openPosition plan seen buy
  let s := play plan cancelled now (before ++ [t])
  have hstart : Carried opened s.2 s := by
    refine ⟨[], (List.append_nil _).symm, ?_⟩
    rw [show s = takeTurn plan (play plan cancelled now before) t from play_snoc ..,
      opens_position hbuying hfill]
    exact ⟨rfl, rfl⟩
  -- The invariant `Carried` begins with the turn of the fill; every later turn keeps it.
  have hcarried : Carried opened s.2 (later.foldl (takeTurn plan) s) :=
    taken_induction (P := fun u _ => Carried opened s.2 u) hstart
      (fun u _ v h hawaits => h.take hawaits) later
  rw [← play_append] at hcarried
  obtain ⟨more, hmore, hcarrying⟩ := hcarried
  have hseen := play_seen plan cancelled now (before ++ [t]) later
  rwa [List.append_cancel_left (hmore.symm.trans hseen)] at hcarrying

/-! ## What the strategy is shown -/

/-- What a run with a position notes of a look if this is the position that it shows to its
strategy. -/
def verdict (plan : Plan) (cancelled : Bool) (shown : Position) (look : Snapshot) : List Action :=
  match plan.strategy.shouldSell shown look with
  | .error _ => []
  | .ok decision =>
    if decision.sell then [.sellSignal (decision.reasonOr "strategy")]
    else if cancelled then [.sellSignal stoppedReason]
    else if plan.strategy.shouldExit (some shown) look then [.exitIgnored]
    else [.observed]

/-- The strategy is asked about this position in a turn that brings a look, and about nothing else:
the run notes what it says of it, and goes on in the same way with every strategy that says the
same of it. -/
structure Asks (plan : Plan) (r : Run) (t : Turn) (shown : Position) (look : Snapshot) : Prop where
  notes : (resume plan t.cancelled t.now r t.reply).1.history = r.history ++
    (verdict plan t.cancelled shown look).map (⟨UInt64.ofNat r.tick, t.now.wall, some look, ·⟩)
  only : ∀ other : Strategy, other.shouldSell shown look = plan.strategy.shouldSell shown look →
    other.shouldExit (some shown) look = plan.strategy.shouldExit (some shown) look →
    resume { plan with strategy := other } t.cancelled t.now r t.reply =
      resume plan t.cancelled t.now r t.reply

/-- The position is the one that the buy has opened, but for the peak, which is the highest of the
price of the buy and some prices. -/
structure Shown (plan : Plan) (seen : Snapshot) (buy : Fill) (path : List Decimal)
    (shown : Position) : Prop where
  tradeId : shown.tradeId = buy.id
  botId : shown.botId = plan.botId
  mint : shown.mint = buy.mint
  entryPrice : shown.entryPrice = buy.price
  tokenAmount : shown.tokenAmount = buy.tokenAmount
  cost : shown.cost = buy.netAmount
  thresholds : shown.thresholds = plan.strategy.exitThresholds seen
  status : shown.status = .isOpen
  closedAt : shown.closedAt = none
  rest : shown = { openPosition plan seen buy with peakPrice := shown.peakPrice }
  peak_mem : shown.peakPrice ∈ buy.price :: path
  le_peak : ∀ price ∈ buy.price :: path, price.value ≤ shown.peakPrice.value

theorem peak_mem_watched (p : Position) (path : List Decimal) :
    (p.watched path).peakPrice ∈ p.peakPrice :: path := by
  induction path using List.reverseRecOn with
  | nil => exact List.mem_singleton_self _
  | append_singleton path price ih =>
    rw [Position.watched_snoc, Position.observe, ← List.cons_append]
    split
    · exact List.mem_append_right _ (List.mem_singleton_self _)
    · exact List.mem_append_left _ ih

theorem le_peak_watched (p : Position) (path : List Decimal) :
    ∀ price ∈ p.peakPrice :: path, price.value ≤ (p.watched path).peakPrice.value := by
  induction path using List.reverseRecOn with
  | nil => exact fun price hprice => (List.mem_singleton.mp hprice) ▸ le_rfl
  | append_singleton path last ih =>
    intro price hprice
    rw [Position.watched_snoc, Position.peak_observe]
    rw [← List.cons_append] at hprice
    rcases List.mem_append.mp hprice with hearlier | hlast
    · exact (ih price hearlier).trans (le_max_left ..)
    · rw [List.mem_singleton.mp hlast]
      exact le_max_right ..

theorem shown_watched (plan : Plan) (seen : Snapshot) (buy : Fill) (path : List Decimal) :
    Shown plan seen buy path ((openPosition plan seen buy).watched path) := by
  have hmem := peak_mem_watched (openPosition plan seen buy) path
  have hle := le_peak_watched (openPosition plan seen buy) path
  rw [Position.watched_eq] at hmem hle ⊢
  exact ⟨rfl, rfl, rfl, rfl, rfl, rfl, rfl, rfl, rfl, rfl, hmem, hle⟩

theorem asks_watch (hphase : r.phase = .fetching (.holding buy position))
    (hlook : t.reply = .snapshot (.ok look)) :
    Asks plan r t (position.observe look.price) look where
  notes := by
    have hresume : resume plan t.cancelled t.now r t.reply =
        watch plan t.cancelled t.now r look buy position := by
      simp only [resume, hphase, hlook, seeing]
    rw [hresume, history, history]
    cases hdecision : plan.strategy.shouldSell (position.observe look.price) look with
    | error fault =>
      simp only [watch, verdict, hdecision]
      exact (List.append_nil _).symm
    | ok decision =>
      simp only [watch, verdict, hdecision]
      split
      · rw [entries_trySell]
        exact List.reverse_cons
      split
      · rw [entries_trySell]
        exact List.reverse_cons
      split
      · exact List.reverse_cons
      · exact List.reverse_cons
  only other hsell hexit := by
    simp only [resume, hphase, hlook, seeing, watch, hsell, hexit]
    rfl

/-- When a buy has been filled its position is stored. At every look of the run from then on that
is answered, the strategy is asked about that position, with the highest of the price of the buy and
the prices that the run has seen since, the one of this look included. -/
theorem strategy_is_shown_stored_position (plan : Plan) (cancelled : Bool) (now : Moment)
    (before : List Turn) (fill : Turn) (later : List Turn) (t : Turn)
    (hbuying : (play plan cancelled now before).1.phase = .buying seen)
    (hfill : fill.reply = .order (.ok buy))
    (hphase : (play plan cancelled now (before ++ [fill] ++ later)).1.phase = .fetching stance)
    (hlook : t.reply = .snapshot (.ok look)) :
    let bought := play plan cancelled now (before ++ [fill])
    let u := play plan cancelled now (before ++ [fill] ++ later)
    let path := prices (seenSince plan cancelled now (before ++ [fill]) (later ++ [t]))
    bought.2 = (play plan cancelled now before).2 ++
      [.answer (.order (.ok buy)), .call (.insertPosition (openPosition plan seen buy))] ∧
    ∃ shown, Shown plan seen buy path shown ∧ Asks plan u.1 t shown look := by
  intro bought u path
  constructor
  · have hawaits : awaits plan (play plan cancelled now before) fill = true := by
      rw [awaits, request?, hbuying, hfill]
      rfl
    rw [show bought = takeTurn plan (play plan cancelled now before) fill from play_snoc ..,
      takeTurn_awaited hawaits, hfill, List.append_assoc]
    simp only [resume, hbuying]
    rfl
  · have hcarrying := carried_play plan cancelled now before hbuying hfill later
    rw [hphase] at hcarrying
    cases stance with
    | holding held position =>
      have hawaits : awaits plan u t = true := by
        rw [awaits, request?, hphase, hlook]
        rfl
      have hpath : path =
          prices (seenSince plan cancelled now (before ++ [fill]) later) ++ [look.price] := by
        change prices (seenSince ..) = _
        rw [seenSince_snoc hawaits, prices_append, prices_seenIn, hlook]
        rfl
      refine ⟨position.observe look.price, ?_, asks_watch hphase hlook⟩
      obtain rfl := hcarrying
      rw [← Position.watched_snoc, ← hpath]
      exact shown_watched plan seen buy path
    | _ => exact hcarrying.elim

/-- The sell at 1.05 fails, and the run is about to look again. -/
def retriedTurns : List Turn :=
  fallingTurns ++ [⟨false, ⟨750, default⟩, .order (.error (.rpc "503"))⟩,
    ⟨false, ⟨1000, default⟩, .rested⟩]

theorem failed_sell_leaves_peak :
    let bought : List Turn := [⟨false, ⟨0, default⟩, .snapshot (.ok default)⟩,
      ⟨false, ⟨0, default⟩, .order (.ok (sampleFill .buy .one))⟩]
    let t : Turn := ⟨false, ⟨1000, default⟩,
      .snapshot (.ok { (default : Snapshot) with price := .ofSmall 11 1 })⟩
    let u := play trailingPlan false ⟨0, default⟩ (bought ++ retriedTurns)
    ∃ shown, shown.peakPrice = .ofSmall 12 1 ∧
      Asks trailingPlan u.1 t shown { (default : Snapshot) with price := .ofSmall 11 1 } := by
  intro bought t u
  have hphase : ∃ stance, u.1.phase = .fetching stance := ⟨_, rfl⟩
  obtain ⟨stance, hphase⟩ := hphase
  obtain ⟨-, shown, hshown, hasks⟩ := strategy_is_shown_stored_position trailingPlan false
    ⟨0, default⟩ (bought.take 1) _ retriedTurns t rfl rfl hphase rfl
  have hpath : prices (seenSince trailingPlan false ⟨0, default⟩ bought (retriedTurns ++ [t])) =
      [.ofSmall 12 1, .ofSmall 105 2, .ofSmall 11 1] := by decide +kernel
  have hmem : shown.peakPrice ∈ Decimal.one ::
      prices (seenSince trailingPlan false ⟨0, default⟩ bought (retriedTurns ++ [t])) :=
    hshown.peak_mem
  have hle : ∀ price ∈ Decimal.one ::
      prices (seenSince trailingPlan false ⟨0, default⟩ bought (retriedTurns ++ [t])),
      price.value ≤ shown.peakPrice.value := hshown.le_peak
  rw [hpath] at hmem hle
  have hpeak : (Decimal.ofSmall 12 1).le shown.peakPrice = true :=
    Decimal.le_iff.mpr (hle _ (by simp))
  refine ⟨shown, ?_, hasks⟩
  simp only [List.mem_cons, List.not_mem_nil, or_false] at hmem
  rcases hmem with hone | hrise | hfall | hlast
  · rw [hone] at hpeak
    exact absurd hpeak (by decide +kernel)
  · exact hrise
  · rw [hfall] at hpeak
    exact absurd hpeak (by decide +kernel)
  · rw [hlast] at hpeak
    exact absurd hpeak (by decide +kernel)

end Run

end LaunchDesk
