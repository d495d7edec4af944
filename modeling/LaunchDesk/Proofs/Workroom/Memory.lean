import LaunchDesk.Proofs.Overseer.Limits
import LaunchDesk.Proofs.Sequences
import LaunchDesk.Proofs.Workroom.Ceiling

/-!
# What the overseer remembers

As long as nobody but the overseer asks for stops, its flags say what has happened: whether a trade
has left the balance at its floor, whether enough runs are finished, whether everything was stopped,
and, until then, whether positions are at their ceiling.
-/

namespace LaunchDesk.Workroom

variable {w : Workroom} {limits : Limits} {balance : Decimal}
variable {before moves : List Move} {move : Move} {o p : Overseer} {fill : Fill}

/-! ## Moments in a workroom -/

def Move.event? : Move → Option Event
  | .publish event => some event
  | _ => none

/-- The overseer stays, and nobody else asks for a stop. -/
def Move.Plain : Move → Prop
  | .publish (.stop _) | .stopAll _ _ | .dismiss => False
  | _ => True

/-- The ledger after the events that moves publish. -/
def ledger (balance : Decimal) (moves : List Move) : Except Decimal.Fault Ledger :=
  (Ledger.opening balance).afterAll (moves.filterMap Move.event?)

/-- A trade leaves the balance at the floor or below it. -/
def TradesToFloor (limits : Limits) (balance : Decimal) (before : List Move) (move : Move) : Prop :=
  ∃ bot fill l, move = .publish (.trade bot fill) ∧ ledger balance (before ++ [move]) = .ok l ∧
    l.AtFloor limits

/-- A run is finished, and with it enough of them are. -/
def CompletesEnough (limits : Limits) (balance : Decimal) (before : List Move) (move : Move) :
    Prop :=
  ∃ bot outcome l, move = .publish (.cycle bot outcome) ∧
    ledger balance (before ++ [move]) = .ok l ∧ l.IsSated limits

/-- A trade on this side is published, with `P` of the ledger before it and `Q` after it. -/
def Trades (side : Side) (P Q : Ledger → Prop) (balance : Decimal) (before : List Move)
    (move : Move) : Prop :=
  ∃ bot fill l m, move = .publish (.trade bot fill) ∧ fill.side = side ∧
    ledger balance before = .ok l ∧ ledger balance (before ++ [move]) = .ok m ∧ P l ∧ Q m

/-- A buy brings positions from below the ceiling to it. -/
def ReachesCeiling (limits : Limits) : Decimal → List Move → Move → Prop :=
  Trades .buy (fun l => ¬l.AtCeiling limits) (Ledger.AtCeiling limits)

/-- A sell brings positions from the ceiling to below it. -/
def LeavesCeiling (limits : Limits) : Decimal → List Move → Move → Prop :=
  Trades .sell (Ledger.AtCeiling limits) fun l => ¬l.AtCeiling limits

/-- The stop requests of which a recorder is told in a move. -/
def news (w : Workroom) (move : Move) : List StopRequest :=
  (Desk.requests (w.after move).desk.notes).drop (Desk.requests w.desk.notes).length

def Pauses (w : Workroom) (move : Move) : Prop := .intake .maxOpenPositions ∈ w.news move

/-- The overseer starts the intake in a move. -/
def Restarts (w : Workroom) (move : Move) : Prop :=
  ∃ o bot fill next, w.desk.overseer = some o ∧ move = .publish (.trade bot fill) ∧
    o.onTrade bot fill = .ok next ∧ Overseer.Reaction.startIntake ∈ next.2

/-! ## One move -/

theorem news_eq {requests : List StopRequest}
    (h : Desk.requests (w.after move).desk.notes = Desk.requests w.desk.notes ++ requests) :
    w.news move = requests := by
  rw [news, h, List.drop_left]

theorem requests_after_move (h : w.Manned) (move : Move) :
    Desk.requests (w.after move).desk.notes = Desk.requests w.desk.notes ++ w.news move := by
  obtain ⟨requests, hrequests⟩ := requests_step h move
  rw [news_eq hrequests.symm, hrequests]

theorem after_publish (h : w.Manned) (event : Event) :
    (w.after (.publish event)).desk.control = w.desk.control.after (.ofEvent event) :=
  (publish_step h event).1

theorem trade_move (h : w.Manned) (ho : w.desk.overseer = some o) (hcount : o.count fill = .ok p)
    (bot : BotId) :
    w.news (.publish (.trade bot fill)) = Control.asksAfterTrade p fill.side ∧
      (w.after (.publish (.trade bot fill))).desk.overseer = some (if p.stopsForBalance then
        { p.afterTrade fill.side with stopped := true, pausedForPositions := false }
      else p.afterTrade fill.side) := by
  have hcontrol := after_publish h (.trade bot fill)
  obtain ⟨hrequests, hoverseer⟩ :=
    Control.after_trade_tells (c := w.desk.control) ho hcount bot
  rw [Control.Act.ofEvent] at hcontrol
  rw [← hcontrol] at hrequests hoverseer
  exact ⟨news_eq hrequests, hoverseer⟩

theorem cycle_move (h : w.Manned) (ho : w.desk.overseer = some o) (bot : BotId)
    (outcome : Outcome) :
    let p := { o with completedTrades := o.completedTrades + 1 }
    w.news (.publish (.cycle bot outcome)) =
        (if p.stopsForTrades then [.all .maxFullTrades] else []) ∧
      (w.after (.publish (.cycle bot outcome))).desk.overseer = some (if p.stopsForTrades then
        { p with fullTradesStopSent := true, stopped := true, pausedForPositions := false }
      else p) := by
  intro p
  have hcontrol := after_publish h (.cycle bot outcome)
  obtain ⟨hrequests, hoverseer⟩ :=
    Control.after_cycle_tells (c := w.desk.control) ho bot outcome
  rw [Control.Act.ofEvent] at hcontrol
  rw [← hcontrol] at hrequests hoverseer
  exact ⟨news_eq hrequests, hoverseer⟩

theorem quiet_move (h : w.Manned) (hmove : move.Plain) (hevent : move.event? = none) :
    w.news move = [] ∧ (w.after move).desk.overseer = w.desk.overseer := by
  have hsame : (w.after move).desk.control.requests = w.desk.control.requests ∧
      (w.after move).desk.control.overseer = w.desk.control.overseer := by
    rcases control_cases h move with hsame | ⟨act, hact, hafter⟩
    · rw [hsame]
      exact ⟨rfl, rfl⟩
    · rw [hafter]
      cases hact with
      | publish event => cases hevent
      | stopAll reason exclude => exact hmove.elim
      | dismiss => exact hmove.elim
      | _ => exact ⟨rfl, rfl⟩
  exact ⟨news_eq (hsame.1.trans (List.append_nil _).symm), hsame.2⟩

/-! ## What the overseer remembers -/

/-- What an overseer with these limits remembers of the moves so far. -/
structure Remembers (limits : Limits) (balance : Decimal) (moves : List Move) (w : Workroom)
    (o : Overseer) : Prop where
  here : w.desk.overseer = some o
  limited : o.limits = limits
  counted : ledger balance moves = .ok o.ledger
  floor : o.balanceStopSent = true ↔ Sometime (TradesToFloor limits balance) moves
  enough : o.fullTradesStopSent = true ↔ Sometime (CompletesEnough limits balance) moves
  stopped : o.stopped = false ↔ w.Calm
  paused : (∀ n, limits.maxOpenPositions = some n → 1 ≤ n.toNat) → o.stopped = false →
    o.pausedForPositions = o.atCeiling

theorem remembers_create (max : Option Nat) (limits : Limits) (balance : Decimal) :
    Remembers limits balance [] (create max (some (limits, balance)))
      { limits := limits, balance := balance } where
  here := rfl
  limited := rfl
  counted := rfl
  floor := iff_of_false Bool.false_ne_true not_sometime_nil
  enough := iff_of_false Bool.false_ne_true not_sometime_nil
  stopped := iff_of_true rfl fun _ hr => nomatch hr
  paused := by
    intro hpositive _
    refine (eq_false_of_ne_true fun h => ?_).symm
    obtain ⟨n, hn, hle⟩ := Overseer.atCeiling_iff.mp h
    have := hpositive n hn
    change n.toNat ≤ 0 at hle
    omega

theorem calm_after (h : w.Manned) (move : Move) :
    (w.after move).Calm ↔ w.Calm ∧ ∀ r ∈ w.news move, r.isScoped = true := by
  unfold Calm
  rw [requests_after_move h move, List.forall_mem_append]

theorem ledger_snoc {l : Ledger} (h : ledger balance before = .ok l) (event : Event) :
    ledger balance (before ++ [.publish event]) = l.after event := by
  rw [← Ledger.afterAll_singleton, ← Ledger.afterAll_append [event] h, ledger,
    List.filterMap_append]
  rfl

theorem ledger_before {m : Ledger} (h : ledger balance (before ++ [move]) = .ok m) :
    ∃ l, ledger balance before = .ok l := by
  unfold ledger at h ⊢
  rw [List.filterMap_append] at h
  cases hevent : move.event? with
  | none =>
    rw [List.filterMap_cons_none hevent, List.filterMap_nil, List.append_nil] at h
    exact ⟨m, h⟩
  | some event =>
    rw [List.filterMap_cons_some hevent, List.filterMap_nil] at h
    obtain ⟨l, hl, -⟩ := Ledger.afterAll_snoc h
    exact ⟨l, hl⟩

/-! ### A trade -/

section Trade

variable (hr : Remembers limits balance before w o) (hcount : o.count fill = .ok p)
include hr hcount

theorem counted_trade (bot : BotId) :
    ledger balance (before ++ [.publish (.trade bot fill)]) = .ok p.ledger :=
  (ledger_snoc hr.counted _).trans (Overseer.count_ledger bot hcount)

theorem tradesToFloor_iff (bot : BotId) :
    TradesToFloor limits balance before (.publish (.trade bot fill)) ↔ p.atFloor = true := by
  have hcounted := counted_trade hr hcount bot
  have hlimits : p.limits = limits := (Overseer.count_spec hcount).1.trans hr.limited
  rw [Overseer.atFloor_iff, hlimits]
  constructor
  · rintro ⟨_, _, l, -, hl, hfloor⟩
    obtain rfl := Except.ok.inj (hcounted.symm.trans hl)
    exact hfloor
  · exact fun hfloor => ⟨bot, fill, _, rfl, hcounted, hfloor⟩

theorem stopsForBalance_iff (bot : BotId) :
    p.stopsForBalance = true ↔
      First (TradesToFloor limits balance) before (.publish (.trade bot fill)) := by
  rw [First, tradesToFloor_iff hr hcount bot, ← hr.floor, Overseer.stopsForBalance,
    (Overseer.count_sent hcount).1]
  simp [and_comm]

theorem trades_iff (bot : BotId) (side : Side) (P Q : Ledger → Prop) :
    Trades side P Q balance before (.publish (.trade bot fill)) ↔
      fill.side = side ∧ P o.ledger ∧ Q p.ledger := by
  have hcounted := counted_trade hr hcount bot
  constructor
  · rintro ⟨_, _, l, m, ⟨⟩, hside, hl, hm, hP, hQ⟩
    obtain rfl := Except.ok.inj (hr.counted.symm.trans hl)
    obtain rfl := Except.ok.inj (hcounted.symm.trans hm)
    exact ⟨hside, hP, hQ⟩
  · exact fun ⟨hside, hP, hQ⟩ => ⟨bot, fill, _, _, rfl, hside, hr.counted, hcounted, hP, hQ⟩

theorem atCeiling_ledger :
    (o.ledger.AtCeiling limits ↔ o.atCeiling = true) ∧
      (p.ledger.AtCeiling limits ↔ p.atCeiling = true) := by
  rw [Overseer.atCeiling_iff_ledger, Overseer.atCeiling_iff_ledger, hr.limited,
    (Overseer.count_spec hcount).1, hr.limited]
  exact ⟨Iff.rfl, Iff.rfl⟩

theorem pauses_iff (bot : BotId) (hpaused : o.pausedForPositions = o.atCeiling) :
    p.pauses fill.side = true ↔
      ReachesCeiling limits balance before (.publish (.trade bot fill)) := by
  obtain ⟨ho, hp⟩ := atCeiling_ledger hr hcount
  rw [ReachesCeiling, trades_iff hr hcount, ho, hp, Overseer.pauses_iff hcount hpaused,
    Bool.not_eq_true]

theorem resumes_iff (bot : BotId) (hpaused : o.pausedForPositions = o.atCeiling)
    (hstopped : o.stopped = false) :
    p.resumes = true ↔ LeavesCeiling limits balance before (.publish (.trade bot fill)) := by
  obtain ⟨ho, hp⟩ := atCeiling_ledger hr hcount
  rw [LeavesCeiling, trades_iff hr hcount, ho, hp, Overseer.resumes_iff hcount hpaused hstopped,
    Bool.not_eq_true]

theorem remembers_trade (h : w.Manned) (bot : BotId) :
    ∃ q, Remembers limits balance (before ++ [.publish (.trade bot fill)])
      (w.after (.publish (.trade bot fill))) q := by
  obtain ⟨hnews, hhere⟩ := trade_move h hr.here hcount bot
  obtain ⟨hlimits, hstopped, -, -⟩ := Overseer.count_spec hcount
  have hlimited : p.limits = limits := hlimits.trans hr.limited
  have hcounted := counted_trade hr hcount bot
  obtain ⟨hfloor, henough⟩ := Overseer.count_sent hcount
  have hsent : (p.balanceStopSent || p.stopsForBalance) = true ↔
      Sometime (TradesToFloor limits balance) (before ++ [.publish (.trade bot fill)]) := by
    rw [sometime_snoc, tradesToFloor_iff hr hcount bot, ← hr.floor, Overseer.stopsForBalance,
      hfloor]
    cases o.balanceStopSent <;> simp
  have hcompleted : p.fullTradesStopSent = true ↔
      Sometime (CompletesEnough limits balance) (before ++ [.publish (.trade bot fill)]) := by
    rw [sometime_snoc, henough, hr.enough]
    exact (or_iff_left (by rintro ⟨_, _, _, ⟨⟩, _⟩)).symm
  have hcalm := calm_after h (.publish (.trade bot fill))
  rw [hnews, ← hr.stopped] at hcalm
  cases hstops : p.stopsForBalance with
  | true =>
    rw [hstops, if_pos rfl] at hhere
    refine ⟨_, hhere, hlimited, hcounted, hsent, hcompleted, ?_, fun _ hfree => nomatch hfree⟩
    -- Everything is stopped just now, so this is the end of the calm.
    refine iff_of_false nofun fun h => ?_
    have := (hcalm.mp h).2 (.all .minWalletBalance) (by simp [Control.asksAfterTrade, hstops])
    cases this
  | false =>
    rw [hstops, if_neg Bool.false_ne_true] at hhere
    refine ⟨_, hhere, hlimited, hcounted, hsent, hcompleted, ?_, fun hpositive hfree => ?_⟩
    · rw [hcalm, ← hstopped]
      refine (and_iff_left fun r hr => ?_).symm
      simp only [Control.asksAfterTrade, hstops, Bool.false_eq_true, if_false, List.append_nil,
        List.mem_ite_nil_right, List.mem_singleton] at hr
      rw [hr.2]
      rfl
    · have hfree' : o.stopped = false := hstopped.symm.trans hfree
      exact Overseer.paused_afterTrade hcount (hr.paused hpositive hfree') hfree'

end Trade

/-! ### A finished run -/

section Cycle

variable (hr : Remembers limits balance before w o)
include hr

theorem completesEnough_iff (bot : BotId) (outcome : Outcome) :
    CompletesEnough limits balance before (.publish (.cycle bot outcome)) ↔
      { o with completedTrades := o.completedTrades + 1 }.isSated = true := by
  have hcounted : ledger balance (before ++ [.publish (.cycle bot outcome)]) =
      .ok { o with completedTrades := o.completedTrades + 1 }.ledger :=
    ledger_snoc hr.counted (.cycle bot outcome)
  rw [Overseer.isSated_iff]
  change _ ↔ Ledger.IsSated o.limits _
  rw [hr.limited]
  constructor
  · rintro ⟨_, _, l, -, hl, hsated⟩
    obtain rfl := Except.ok.inj (hcounted.symm.trans hl)
    exact hsated
  · exact fun hsated => ⟨bot, outcome, _, rfl, hcounted, hsated⟩

theorem stopsForTrades_iff (bot : BotId) (outcome : Outcome) :
    { o with completedTrades := o.completedTrades + 1 }.stopsForTrades = true ↔
      First (CompletesEnough limits balance) before (.publish (.cycle bot outcome)) := by
  rw [First, completesEnough_iff hr, ← hr.enough, Overseer.stopsForTrades]
  simp [and_comm]

theorem remembers_cycle (h : w.Manned) (bot : BotId) (outcome : Outcome) :
    ∃ q, Remembers limits balance (before ++ [.publish (.cycle bot outcome)])
      (w.after (.publish (.cycle bot outcome))) q := by
  obtain ⟨hnews, hhere⟩ := cycle_move h hr.here bot outcome
  have hcounted : ledger balance (before ++ [.publish (.cycle bot outcome)]) =
      .ok { o with completedTrades := o.completedTrades + 1 }.ledger :=
    ledger_snoc hr.counted (.cycle bot outcome)
  have hfloor : o.balanceStopSent = true ↔
      Sometime (TradesToFloor limits balance) (before ++ [.publish (.cycle bot outcome)]) := by
    rw [sometime_snoc, hr.floor]
    exact (or_iff_left (by rintro ⟨_, _, _, ⟨⟩, _⟩)).symm
  have hsated := stopsForTrades_iff hr bot outcome
  have hcalm := calm_after h (.publish (.cycle bot outcome))
  rw [hnews, ← hr.stopped] at hcalm
  cases hstops : { o with completedTrades := o.completedTrades + 1 }.stopsForTrades with
  | true =>
    simp only [hstops, if_true] at hhere hcalm
    refine ⟨_, hhere, hr.limited, hcounted, hfloor, ?_, ?_, fun _ hfree => nomatch hfree⟩
    · exact iff_of_true rfl (sometime_snoc.mpr (.inr (hsated.mp hstops).1))
    · refine iff_of_false nofun fun h => ?_
      have := (hcalm.mp h).2 (.all .maxFullTrades) (List.mem_singleton_self _)
      cases this
  | false =>
    simp only [hstops, Bool.false_eq_true, if_false] at hhere hcalm
    refine ⟨_, hhere, hr.limited, hcounted, hfloor, ?_, ?_, hr.paused⟩
    · rw [sometime_snoc, ← hr.enough]
      -- Whoever has enough now and asks for nothing has asked before.
      refine (or_iff_left_of_imp fun hcompletes => ?_).symm
      rw [completesEnough_iff hr] at hcompletes
      simpa [Overseer.stopsForTrades, hcompletes] using hstops
    · rw [hcalm]
      exact (and_iff_left fun _ hr => nomatch hr).symm

end Cycle

/-! ### Any move -/

theorem plain_cases (hmove : move.Plain) :
    move.event? = none ∨ (∃ bot fill, move = .publish (.trade bot fill)) ∨
      ∃ bot outcome, move = .publish (.cycle bot outcome) := by
  cases move with
  | publish event =>
    cases event with
    | trade bot fill => exact .inr (.inl ⟨bot, fill, rfl⟩)
    | cycle bot outcome => exact .inr (.inr ⟨bot, outcome, rfl⟩)
    | stop request => exact hmove.elim
  | _ => exact .inl rfl

theorem count_of_move {m : Ledger} (hr : Remembers limits balance before w o)
    (hm : ledger balance (before ++ [.publish (.trade bot fill)]) = .ok m) :
    ∃ p, o.count fill = .ok p := by
  rw [ledger_snoc hr.counted] at hm
  obtain ⟨p, hp, -⟩ := Overseer.count_of_ledger hm
  exact ⟨p, hp⟩

theorem moments_of_quiet (limits : Limits) (balance : Decimal) (before : List Move)
    (hevent : move.event? = none) :
    ¬TradesToFloor limits balance before move ∧ ¬CompletesEnough limits balance before move ∧
      ∀ side P Q, ¬Trades side P Q balance before move := by
  refine ⟨?_, ?_, fun side P Q => ?_⟩
  · rintro ⟨_, _, _, rfl, -⟩
    cases hevent
  · rintro ⟨_, _, _, rfl, -⟩
    cases hevent
  · rintro ⟨_, _, _, _, rfl, -⟩
    cases hevent

theorem remembers_quiet (h : w.Manned) (hr : Remembers limits balance before w o)
    (hmove : move.Plain) (hevent : move.event? = none) :
    Remembers limits balance (before ++ [move]) (w.after move) o := by
  obtain ⟨hnews, hsame⟩ := quiet_move h hmove hevent
  obtain ⟨hfloor, henough, -⟩ := moments_of_quiet limits balance before hevent
  refine ⟨hsame.trans hr.here, hr.limited, ?_, ?_, ?_, ?_, hr.paused⟩
  · rw [ledger, List.filterMap_append, List.filterMap_cons_none hevent, List.filterMap_nil,
      List.append_nil]
    exact hr.counted
  · rw [sometime_snoc, hr.floor, or_iff_left hfloor]
  · rw [sometime_snoc, hr.enough, or_iff_left henough]
  · rw [calm_after h move, hnews, hr.stopped]
    exact (and_iff_left fun _ hr => nomatch hr).symm

theorem remembers_step {m : Ledger} (h : w.Manned) (hr : Remembers limits balance before w o)
    (hmove : move.Plain) (hm : ledger balance (before ++ [move]) = .ok m) :
    ∃ q, Remembers limits balance (before ++ [move]) (w.after move) q := by
  rcases plain_cases hmove with hevent | ⟨bot, fill, rfl⟩ | ⟨bot, outcome, rfl⟩
  · exact ⟨o, remembers_quiet h hr hmove hevent⟩
  · obtain ⟨p, hp⟩ := count_of_move hr hm
    exact remembers_trade hr hp h bot
  · exact remembers_cycle hr h bot outcome

theorem remembers_work {l : Ledger} (max : Option Nat) (hmoves : ∀ move ∈ moves, move.Plain)
    (hl : ledger balance moves = .ok l) :
    ∃ o, Remembers limits balance moves (work max limits balance moves) o := by
  induction moves using List.reverseRecOn generalizing l with
  | nil => exact ⟨_, remembers_create max limits balance⟩
  | append_singleton moves move ih =>
    obtain ⟨k, hk⟩ := ledger_before hl
    obtain ⟨o, ho⟩ := ih (fun m hm => hmoves m (List.mem_append_left _ hm)) hk
    rw [work_append]
    exact remembers_step (manned_work moves) ho (hmoves move (by simp)) hl

end LaunchDesk.Workroom
