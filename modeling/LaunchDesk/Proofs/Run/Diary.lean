import LaunchDesk.Proofs.Run.Pages
import LaunchDesk.Proofs.Run.Words

/-!
# The history of a run

A run writes one page a tick, and goes on to the next tick only when the page is whole. `Logged`
says for each phase which pages there are and what the page under way has so far.
-/

namespace LaunchDesk.Run

variable {plan : Plan} {now : Moment} {r : Run} {stance : Stance} {p : Progress}
variable {pages : List Page} {actions : List Action} {page : Page} {w : List Effect}

def written (history : List Entry) : List (UInt64 × Action) :=
  history.map fun e => (e.tick, e.action)

theorem written_record (r : Run) (seen : Option Snapshot) (action : Action) :
    written (r.record now seen action).history =
      written r.history ++ [(UInt64.ofNat r.tick, action)] := by
  simp [written, history, record]

/-- The pages of a run between two ticks. -/
structure Wrote (r : Run) (pages : List Page) : Prop where
  tick : r.tick = pages.length
  history : written r.history = Page.diary pages

/-- The pages of a run in a tick that has noted `actions` so far. -/
structure Writes (r : Run) (pages : List Page) (actions : List Action) : Prop where
  tick : r.tick = pages.length + 1
  history : written r.history = Page.diary pages ++ actions.map fun a => (UInt64.ofNat r.tick, a)

theorem Wrote.next (h : Wrote r pages) : Writes { r with tick := r.tick + 1 } pages [] where
  tick := congrArg (· + 1) h.tick
  history := by
    rw [List.map_nil, List.append_nil]
    exact h.history

theorem Writes.record (h : Writes r pages actions) (now : Moment) (seen : Option Snapshot)
    (action : Action) : Writes (r.record now seen action) pages (actions ++ [action]) where
  tick := h.tick
  history := by
    rw [written_record, h.history, List.append_assoc, List.map_append]
    rfl

theorem Writes.whole (h : Writes r pages actions) (page : Page) (hpage : page.actions = actions) :
    Wrote r (pages ++ [page]) where
  tick := by rw [h.tick, List.length_append, List.length_singleton]
  history := by rw [h.history, h.tick, Page.diary_snoc, hpage]

/-! ## The invariant -/

/-- Which pages there may be when a run stands so. -/
def Stance.Allows : Stance → List Page → Prop
  | .looking, pages => pages.all Page.isIdle
  | .leaving _, pages => Page.Left pages
  | .holding _ _, pages => Page.Bought pages

/-- A report goes with an outcome and the pages in its history. -/
def Accounts (outcome : Outcome) (report : Report) : Prop :=
  ∃ pages, Page.Recounts outcome pages ∧ written outcome.history = Page.diary pages ∧
    report.ticks = UInt64.ofNat pages.length

def Logged (r : Run) : Prop :=
  match r.phase with
  | .resting stance => ∃ pages, Wrote r pages ∧ stance.Allows pages
  | .fetching stance => ∃ pages, Writes r pages [] ∧ stance.Allows pages
  | .buying _ => ∃ pages, Writes r pages [.buySignal] ∧ pages.all Page.isIdle
  | .opening _ _ _ => ∃ pages, Writes r pages [.buySignal] ∧ pages.all Page.isIdle
  | .selling _ _ _ reason => ∃ pages, Writes r pages [.sellSignal reason] ∧ Page.Bought pages
  | .closing _ _ _ _ closure =>
    ∃ pages, Writes r pages [.sellSignal closure.reason] ∧ Page.Bought pages
  | .recording outcome report => Accounts outcome report
  | _ => True

theorem Stance.Allows.snoc (h : stance.Allows pages) (hpage : page.isQuiet) :
    stance.Allows (pages ++ [page]) := by
  cases stance with
  | looking => exact Page.idle_snoc h (Page.isIdle_of_isQuiet hpage)
  | leaving deadline => exact Page.Left.snoc h hpage
  | holding buy position => exact Page.Bought.snoc h (Page.isHeld_of_isQuiet hpage)

/-! ## One step -/

theorem logged_after {notices : List Notice} (h : Logged p.1) : Logged (after notices p).1 := h

theorem logged_depart (h : Wrote r pages) {reason : ExitReason}
    (hpages :
      Page.Recounts (.exited ⟨plan.botId, plan.opportunity.mint, reason, r.history⟩) pages) :
    Logged (depart plan now r reason).1 :=
  ⟨pages, hpages, h.history, congrArg UInt64.ofNat h.tick⟩

theorem logged_endTick (h : Wrote r pages) (hpages : stance.Allows pages) :
    Logged (endTick plan now r stance).1 := by
  have hrest : Logged (r.enter (.resting stance)) := ⟨pages, ⟨h.tick, h.history⟩, hpages⟩
  cases stance with
  | looking => exact hrest
  | holding buy position => exact hrest
  | leaving deadline =>
    simp only [endTick]
    split
    · exact logged_depart h hpages
    · exact hrest

theorem logged_nextTick (cancelled : Bool) (h : Wrote r pages) (hpages : stance.Allows pages) :
    Logged (nextTick plan cancelled now r stance).1 := by
  have hnext := h.next
  have hfetch : Logged ({ r with tick := r.tick + 1 }.enter (.fetching stance)) :=
    ⟨pages, ⟨hnext.tick, hnext.history⟩, hpages⟩
  have hcancelled := (hnext.record now none .cancelled).whole .cancelled rfl
  cases stance with
  | holding buy position => exact hfetch
  | looking =>
    cases cancelled with
    | false => exact hfetch
    | true => exact logged_depart hcancelled ⟨pages, .inl hpages, rfl⟩
  | leaving deadline =>
    cases cancelled with
    | false => exact hfetch
    | true => exact logged_depart hcancelled ⟨pages, .inr hpages, rfl⟩

theorem logged_snapshotFailed (fault : Fault) (h : Writes r pages [])
    (hpages : stance.Allows pages) : Logged (snapshotFailed plan now r stance fault).1 := by
  have hfailed := (h.record now none (.snapshotFailed fault.message)).whole
    (.snapshotFailed fault.message) rfl
  exact logged_endTick hfailed (hpages.snoc rfl)

theorem logged_lookAt (seen : Snapshot) (h : Writes r pages []) (hpages : pages.all Page.isIdle) :
    Logged (lookAt plan now r seen).1 := by
  unfold lookAt
  split
  · have hsignal := (h.record now (some seen) .exitSignal).whole .exitSignal rfl
    exact logged_endTick hsignal (Page.left_of_idle hpages)
  · split
    · have hsignal := h.record now (some seen) .buySignal
      exact ⟨pages, ⟨hsignal.tick, hsignal.history⟩, hpages⟩
    · have hobserved := (h.record now (some seen) .observed).whole .observed rfl
      exact logged_endTick hobserved (Page.idle_snoc hpages rfl)

theorem logged_trySell {buy : Fill} {position : Position} (seen : Snapshot) (reason : String)
    (h : Writes r pages []) (hpages : Page.Bought pages) :
    Logged (trySell plan now r seen buy position reason).1 := by
  have hsignal := h.record now (some seen) (.sellSignal reason)
  unfold trySell
  simp only
  cases position.changePercent seen.price with
  | error fault => trivial
  | ok change => exact ⟨pages, ⟨hsignal.tick, hsignal.history⟩, hpages⟩

theorem logged_watch {buy : Fill} {position : Position} (cancelled : Bool) (seen : Snapshot)
    (h : Writes r pages []) (hpages : Page.Bought pages) :
    Logged (watch plan cancelled now r seen buy position).1 := by
  unfold watch
  simp only
  cases plan.strategy.shouldSell (position.observe seen.price) seen with
  | error fault => trivial
  | ok decision =>
    simp only
    split
    · exact logged_trySell seen _ h hpages
    split
    · exact logged_trySell seen _ h hpages
    split
    · have hignored := (h.record now (some seen) .exitIgnored).whole .exitIgnored rfl
      exact logged_endTick hignored (hpages.snoc rfl)
    · have hobserved := (h.record now (some seen) .observed).whole .observed rfl
      exact logged_endTick hobserved (hpages.snoc rfl)

theorem logged_seeing (cancelled : Bool) (seen : Snapshot) (h : Writes r pages [])
    (hpages : stance.Allows pages) : Logged (seeing plan cancelled now r seen stance).1 := by
  cases stance with
  | looking => exact logged_lookAt seen h hpages
  | leaving deadline =>
    have hobserved := (h.record now (some seen) .observed).whole .observed rfl
    exact logged_endTick hobserved (Page.Left.snoc hpages rfl)
  | holding buy position => exact logged_watch cancelled seen h hpages

theorem logged_buyFailed (seen : Snapshot) (cause : ExecutionFault)
    (h : Writes r pages [.buySignal]) (hpages : pages.all Page.isIdle) :
    Logged (buyFailed plan now r seen cause).1 := by
  have hfailed := (h.record now (some seen) (.buyFailed cause.message)).whole
    (.buyFailed cause.message) rfl
  unfold buyFailed
  simp only
  cases plan.classify cause with
  | fatal kind => trivial
  | transient => exact logged_endTick hfailed (Page.idle_snoc hpages rfl)

theorem logged_opened {buy : Fill} {position : Position} (seen : Snapshot)
    (stored : Except Fault Unit) (h : Writes r pages [.buySignal])
    (hpages : pages.all Page.isIdle) :
    Logged (opened plan now r seen buy position stored).1 := by
  have hbought := (h.record now (some seen) .bought).whole .bought rfl
  exact logged_endTick hbought (Page.bought_of_idle hpages)

theorem logged_sellFailed {buy : Fill} {position : Position} {reason : String} (seen : Snapshot)
    (cause : ExecutionFault) (h : Writes r pages [.sellSignal reason])
    (hpages : Page.Bought pages) : Logged (sellFailed plan now r seen buy position cause).1 := by
  have hfailed := (h.record now (some seen) (.sellFailed cause.message)).whole
    (.sellFailed reason cause.message) rfl
  exact logged_endTick hfailed (hpages.snoc rfl)

/-! ## Closing a position -/

theorem closureOf_reason {position : Position} {sell : Fill} {reason : String} {closure : Closure}
    (h : closureOf position sell reason = .ok closure) : closure.reason = reason := by
  unfold closureOf at h
  cases hpnl : sell.netAmount.sub position.cost with
  | error fault =>
    rw [hpnl] at h
    cases h
  | ok pnl =>
    rw [hpnl] at h
    cases h
    rfl

theorem logged_sold {buy sell : Fill} {position : Position} {reason : String} (seen : Snapshot)
    (h : Writes r pages [.sellSignal reason]) (hpages : Page.Bought pages) :
    Logged (sold r seen buy sell position reason).1 := by
  unfold sold
  cases hclosure : closureOf position sell reason with
  | error fault => trivial
  | ok closure =>
    rw [← closureOf_reason hclosure] at h
    exact ⟨pages, ⟨h.tick, h.history⟩, hpages⟩

theorem ofFills_tells {bot : BotId} {buy sell : Fill} {reason : String} {history : List Entry}
    {outcome : Outcome} (h : Outcome.ofFills bot buy sell reason history = .ok outcome) :
    ∃ trade : RoundTrip,
      outcome = .completed trade ∧ trade.sellReason = reason ∧ trade.history = history := by
  unfold Outcome.ofFills at h
  cases hpnl : sell.netAmount.sub buy.netAmount with
  | error fault =>
    rw [hpnl] at h
    cases h
  | ok pnl =>
    rw [hpnl] at h
    cases h
    exact ⟨_, rfl, rfl, rfl⟩

theorem logged_closed {buy sell : Fill} {closure : Closure} (seen : Snapshot)
    (stored : Except Fault Unit) (h : Writes r pages [.sellSignal closure.reason])
    (hpages : Page.Bought pages) :
    Logged (closed plan now r seen buy sell closure stored).1 := by
  have hsold := (h.record now (some seen) .sold).whole (.sold closure.reason) rfl
  apply logged_after
  split
  · trivial
  · next outcome hfills =>
    obtain ⟨trade, rfl, hreason, hhistory⟩ := ofFills_tells hfills
    refine ⟨_, ⟨pages, hpages, ?_⟩, ?_, congrArg UInt64.ofNat hsold.tick⟩
    · rw [hreason]
    · rw [Outcome.history, hhistory]
      exact hsold.history

/-! ## Whole runs -/

theorem logged_resume (cancelled : Bool) (reply : Reply) (h : Logged r) :
    Logged (resume plan cancelled now r reply).1 := by
  rcases resume_cases plan cancelled now r reply with hawaits | hsame
  · obtain ⟨tick, startMs, entries, phase⟩ := r
    -- Each phase knows what has been written of the page of this tick; the reply writes the rest.
    cases hawaits with
    | seen stance seen =>
      obtain ⟨pages, hwrites, hpages⟩ := h
      exact logged_seeing cancelled seen hwrites hpages
    | unseen stance fault =>
      obtain ⟨pages, hwrites, hpages⟩ := h
      exact logged_snapshotFailed fault hwrites hpages
    | bought seen buy =>
      obtain ⟨pages, hwrites, hpages⟩ := h
      exact ⟨pages, ⟨hwrites.tick, hwrites.history⟩, hpages⟩
    | unbought seen cause =>
      obtain ⟨pages, hwrites, hpages⟩ := h
      exact logged_buyFailed seen cause hwrites hpages
    | opened seen buy position answer =>
      obtain ⟨pages, hwrites, hpages⟩ := h
      exact logged_opened seen answer hwrites hpages
    | sold seen buy position reason sell =>
      obtain ⟨pages, hwrites, hpages⟩ := h
      exact logged_sold seen hwrites hpages
    | unsold seen buy position reason cause =>
      obtain ⟨pages, hwrites, hpages⟩ := h
      exact logged_sellFailed seen cause hwrites hpages
    | closed seen buy sell position closure answer =>
      obtain ⟨pages, hwrites, hpages⟩ := h
      exact logged_closed seen answer hwrites hpages
    | rested stance =>
      obtain ⟨pages, hwrote, hpages⟩ := h
      exact logged_nextTick cancelled hwrote hpages
    | _ => trivial
  · rw [hsame]
    exact h

theorem logged_start (cancelled : Bool) : Logged (start plan cancelled now).1 := by
  have hwrote : Wrote { startMs := now.ms, phase := .resting .looking } [] := ⟨rfl, rfl⟩
  exact logged_nextTick cancelled hwrote rfl

/-- Every outcome that was stored went with its report. -/
def Filed (w : List Effect) : Prop :=
  ∀ outcome report, .call (.insertOutcome outcome report) ∈ w → Accounts outcome report

theorem filed_effects (h : Logged p.1) : Filed (effects plan p) := by
  intro outcome report hmem
  have hrequest := request_of_mem_effects hmem
  obtain ⟨⟨tick, startMs, entries, phase⟩, notices⟩ := p
  cases phase with
  | recording outcome' report' =>
    cases hrequest
    exact h
  | _ => simp [request?] at hrequest

theorem logged_play (cancelled : Bool) (turns : List Turn) :
    Logged (play plan cancelled now turns).1 ∧ Filed (play plan cancelled now turns).2 := by
  induction turns using List.reverseRecOn with
  | nil => exact ⟨logged_start cancelled, filed_effects (logged_start cancelled)⟩
  | append_singleton turns t ih =>
    obtain ⟨hlogged, hfiled⟩ := ih
    rw [play_snoc]
    unfold takeTurn
    split
    · have hnext : Logged (resume plan t.cancelled t.now (play plan cancelled now turns).1
          t.reply).1 := logged_resume t.cancelled t.reply hlogged
      refine ⟨hnext, ?_⟩
      intro outcome report hmem
      rcases List.mem_append.mp hmem with hmem | hmem
      · rcases List.mem_append.mp hmem with hmem | hmem
        · exact hfiled outcome report hmem
        · cases hreply : t.reply <;> simp [hreply, Effect.ofReply] at hmem
      · exact filed_effects hnext outcome report hmem
    · exact ⟨hlogged, hfiled⟩

theorem insertOutcome_mem_of_words {outcome : Outcome} (h : w ∈ words plan (.ok outcome)) :
    ∃ report, Effect.call (.insertOutcome outcome report) ∈ w := by
  cases outcome with
  | exited departure =>
    obtain ⟨u, -, v, ⟨report, stored, rfl⟩, rfl⟩ := Language.mem_mul.mp h
    exact ⟨report, by simp [exchange]⟩
  | completed trade =>
    obtain ⟨u, -, v, ⟨seen, order, closure, closed, report, stored, -, rfl⟩, rfl⟩ :=
      Language.mem_mul.mp h
    exact ⟨report, by simp [exchange]⟩

/-- The history of a run that has ended with an outcome is made of whole pages, one for each tick
from the first to the last that is reported, and they recount how the run went. -/
theorem history_recounts_run (plan : Plan) (cancelled : Bool) (now : Moment) (turns : List Turn)
    {outcome : Outcome}
    (hended : (play plan cancelled now turns).1.phase = .ended (.ok outcome)) :
    ∃ report pages,
      .call (.insertOutcome outcome report) ∈ (play plan cancelled now turns).2 ∧
      Page.Recounts outcome pages ∧
      (outcome.history.map fun e => (e.tick, e.action)) = Page.diary pages ∧
      report.ticks = UInt64.ofNat pages.length ∧
      (pages.length < UInt64.size →
        (outcome.history.map (·.tick.toNat)).Pairwise (· ≤ ·) ∧
        ∀ k, k ∈ outcome.history.map (·.tick.toNat) ↔ 1 ≤ k ∧ k ≤ report.ticks.toNat) := by
  have hshows := shows_play plan cancelled now turns
  rw [hended] at hshows
  -- Every word of this result holds the outcome with its report, so `Filed` speaks of it.
  obtain ⟨report, hstored⟩ := insertOutcome_mem_of_words hshows
  obtain ⟨pages, hrecounts, hhistory, hticks⟩ :=
    (logged_play cancelled turns).2 outcome report hstored
  refine ⟨report, pages, hstored, hrecounts, hhistory, hticks, fun hsize => ?_⟩
  have hsame : outcome.history.map (·.tick.toNat) = Page.ticks pages := by
    rw [Page.ticks, ← hhistory, written, List.map_map]
    rfl
  rw [hsame, hticks, UInt64.toNat_ofNat_of_lt' hsize]
  exact ⟨Page.ticks_sorted hsize, Page.mem_ticks_iff hsize⟩

/-- The market, a buy and a sell fail once each before they work. -/
def rockyTurns : List Turn :=
  [⟨false, ⟨0, default⟩, .snapshot (.error (.marketData "down"))⟩,
    ⟨false, ⟨250, default⟩, .rested⟩,
    ⟨false, ⟨250, default⟩, .snapshot (.ok default)⟩,
    ⟨false, ⟨255, default⟩, .order (.error (.rpc "503"))⟩,
    ⟨false, ⟨505, default⟩, .rested⟩,
    ⟨false, ⟨505, default⟩, .snapshot (.ok default)⟩,
    ⟨false, ⟨510, default⟩, .order (.ok (sampleFill .buy .one))⟩,
    ⟨false, ⟨510, default⟩, .stored (.ok ())⟩,
    ⟨false, ⟨760, default⟩, .rested⟩,
    ⟨false, ⟨760, default⟩, .snapshot (.ok default)⟩,
    ⟨false, ⟨765, default⟩, .order (.error (.rpc "503"))⟩,
    ⟨false, ⟨1015, default⟩, .rested⟩,
    ⟨false, ⟨1015, default⟩, .snapshot (.ok default)⟩,
    ⟨false, ⟨1020, default⟩, .order (.ok (sampleFill .sell .hundred))⟩,
    ⟨false, ⟨1020, default⟩, .stored (.ok ())⟩,
    ⟨false, ⟨1020, default⟩, .stored (.ok ())⟩]

theorem rocky_run_fills_five_pages :
    ∃ trade : RoundTrip,
      (play eagerPlan false ⟨0, default⟩ rockyTurns).1.phase = .ended (.ok (.completed trade)) ∧
      trade.history.map (·.tick.toNat) = [1, 2, 2, 3, 3, 4, 4, 5, 5] ∧
      ∃ pages earlier, pages = earlier ++ [Page.sold trade.sellReason] ∧ Page.Bought earlier ∧
        (trade.history.map fun e => (e.tick, e.action)) = Page.diary pages := by
  have hended : ∃ trade : RoundTrip, (play eagerPlan false ⟨0, default⟩ rockyTurns).1.phase =
      .ended (.ok (.completed trade)) ∧
      trade.history.map (·.tick.toNat) = [1, 2, 2, 3, 3, 4, 4, 5, 5] := ⟨_, rfl, rfl⟩
  obtain ⟨trade, hphase, hticks⟩ := hended
  obtain ⟨report, pages, -, ⟨earlier, hbought, hpages⟩, hhistory, -⟩ :=
    history_recounts_run eagerPlan false ⟨0, default⟩ rockyTurns hphase
  exact ⟨trade, hphase, hticks, pages, earlier, hpages, hbought, hhistory⟩

end LaunchDesk.Run
