import LaunchDesk.Proofs.Run.Taken
import LaunchDesk.Proofs.Run.Transitions
import Mathlib.Algebra.Ring.Nat

/-!
# The pace of a run

A run whose requests are answered at once keeps to a grid. From one tick to the next it waits for
the pause of the stance in which the tick ended, so the time of a tick depends only on how many of
the ticks before it ended with a position. A tick ends with one from the buy on.
-/

namespace LaunchDesk.Run

variable {plan : Plan} {now : Moment} {r : Run} {s : Run × List Effect} {t : Turn}
variable {settings : TradingSettings} {ms : Nat} {turns : List Turn} {held : Bool}
variable {pending : Option Bool} {times : List Nat} {ends : List Bool}

/-- Whether a tick ends with a position, if the run is between two ticks. -/
def ending? (r : Run) : Option Bool :=
  match r.phase with
  | .resting stance => some stance.isHolding
  | _ => none

/-- The times of the ticks that begin in some turns. -/
def tickTimes (plan : Plan) : Run × List Effect → List Turn → List Nat
  | _, [] => []
  | s, t :: turns =>
    let next := takeTurn plan s t
    if s.1.tick < next.1.tick then t.now.ms :: tickTimes plan next turns
    else tickTimes plan next turns

/-- How the ticks end, with a position or without, of a run that takes some turns. -/
def endings (plan : Plan) : Run × List Effect → List Turn → List Bool
  | s, [] => s.1.ending?.toList
  | s, t :: turns => s.1.ending?.toList ++ endings plan (takeTurn plan s t) turns

/-- The pause after a tick that ends with a position or without. -/
def pause (settings : TradingSettings) (held : Bool) : Nat :=
  if held then settings.sellPollIntervalMs.toNat else settings.buyPollIntervalMs.toNat

theorem pause_le {later : Bool}
    (hle : settings.sellPollIntervalMs.toNat ≤ settings.buyPollIntervalMs.toNat)
    (hheld : held ≤ later) : pause settings later ≤ pause settings held := by
  cases held <;> cases later
  · exact Nat.le_refl _
  · exact hle
  · cases hheld rfl
  · exact Nat.le_refl _

theorem interval_eq (settings : TradingSettings) (stance : Stance) :
    interval settings stance = pause settings stance.isHolding := by
  cases stance <;> rfl

/-! ## The number of the tick -/

theorem tick_lookAt (seen : Snapshot) : (lookAt plan now r seen).1.tick = r.tick := by
  unfold lookAt
  split
  · exact tick_endTick ..
  split
  · rfl
  · exact tick_endTick ..

theorem tick_watch (cancelled : Bool) (seen : Snapshot) (buy : Fill) (position : Position) :
    (watch plan cancelled now r seen buy position).1.tick = r.tick := by
  simp only [watch]
  split
  · rfl
  split
  · exact tick_trySell ..
  split
  · exact tick_trySell ..
  split <;> exact tick_endTick plan now ..

/-- A tick lasts until the run rests. -/
theorem tick_resume (cancelled : Bool) (reply : Reply) (hworks : r.ending? = none) :
    (resume plan cancelled now r reply).1.tick = r.tick := by
  rcases resume_cases plan cancelled now r reply with hawaits | hsame
  · obtain ⟨tick, startMs, entries, phase⟩ := r
    -- Only the answer to a rest begins a tick, and `hworks` rules that phase out.
    cases hawaits with
    | seen stance seen =>
      cases stance with
      | looking => exact tick_lookAt seen
      | leaving deadline => exact tick_endTick ..
      | holding buy position => exact tick_watch cancelled seen buy position
    | unbought seen cause =>
      simp only [resume, buyFailed]
      split
      · rfl
      · exact tick_endTick plan now ..
    | sold seen buy position reason sell =>
      simp only [resume, sold]
      split <;> rfl
    | closed seen buy sell position closure answer =>
      simp only [resume, closed, after]
      split <;> rfl
    | unseen stance fault => exact tick_endTick plan now ..
    | opened seen buy position answer => exact tick_endTick plan now ..
    | unsold seen buy position reason cause => exact tick_endTick plan now ..
    | rested stance => cases hworks
    | _ => rfl
  · rw [hsame]

theorem ending?_eq_some (hends : r.ending? = some held) :
    ∃ stance, r.phase = .resting stance ∧ held = stance.isHolding := by
  unfold ending? at hends
  split at hends
  · next stance hphase => exact ⟨stance, hphase, (Option.some.inj hends).symm⟩
  · cases hends

theorem pauseMs_of_working (hworks : r.ending? = none) : pauseMs (r.request? plan) = 0 := by
  obtain ⟨tick, startMs, entries, phase⟩ := r
  cases phase with
  | resting stance => cases hworks
  | _ => rfl

theorem tick_nextTick (cancelled : Bool) (stance : Stance) :
    (nextTick plan cancelled now r stance).1.tick = r.tick + 1 := by
  cases stance <;> cases cancelled <;> rfl

/-! ## From tick to tick -/

/-- The clock of a run from the time `ms` on: the pause after a tick is over when the next one
begins, and the run may be between two ticks at the end. -/
inductive Paced (settings : TradingSettings) (pending : Option Bool) :
    Nat → List Nat → List Bool → Prop
  | stop {ms : Nat} : Paced settings pending ms [] pending.toList
  | tick {ms : Nat} {held : Bool} {times : List Nat} {ends : List Bool}
    (hlater : Paced settings pending (ms + pause settings held) times ends) :
    Paced settings pending ms ((ms + pause settings held) :: times) (held :: ends)

theorem prompt_turn (hawaits : awaits plan s t = true)
    (hnow : t.now.ms = ms + pauseMs (s.1.request? plan)) :
    (s.1.ending? = none ∧ t.now.ms = ms ∧ (takeTurn plan s t).1.tick = s.1.tick) ∨
      ∃ held, s.1.ending? = some held ∧ t.now.ms = ms + pause plan.settings held ∧
        (takeTurn plan s t).1.tick = s.1.tick + 1 := by
  rw [takeTurn_awaited hawaits]
  cases hends : s.1.ending? with
  | none =>
    rw [pauseMs_of_working hends] at hnow
    exact .inl ⟨rfl, hnow, tick_resume t.cancelled t.reply hends⟩
  | some held =>
    obtain ⟨stance, hphase, rfl⟩ := ending?_eq_some hends
    have hreply : t.reply = .rested := rested_of_awaits hphase hawaits
    rw [request?, hphase, pauseMs, interval_eq] at hnow
    refine .inr ⟨_, rfl, hnow, ?_⟩
    rw [hreply]
    simp only [resume, hphase]
    exact tick_nextTick t.cancelled stance

theorem paced_prompt (hprompt : Prompt plan s ms turns) :
    Paced plan.settings (turns.foldl (takeTurn plan) s).1.ending? ms (tickTimes plan s turns)
      (endings plan s turns) := by
  induction turns generalizing s ms with
  | nil => exact .stop
  | cons t turns ih =>
    obtain ⟨hawaits, hnow, hprompt⟩ := hprompt
    have hlater := ih hprompt
    -- Either the pause in which the run stands is over, or no time has gone by.
    rw [List.foldl_cons, tickTimes, endings]
    rcases prompt_turn hawaits hnow with ⟨hends, hsame, htick⟩ | ⟨held, hends, hnext, htick⟩
    · simp only [hends, htick, Nat.lt_irrefl, if_false]
      rw [hsame] at hlater
      exact hlater
    · simp only [hends, htick, Nat.lt_succ_self, if_true]
      rw [hnext] at hlater ⊢
      exact .tick hlater

theorem tick_eq (hprompt : Prompt plan s ms turns) :
    (turns.foldl (takeTurn plan) s).1.tick = s.1.tick + (tickTimes plan s turns).length := by
  induction turns generalizing s ms with
  | nil => rfl
  | cons t turns ih =>
    obtain ⟨hawaits, hnow, hprompt⟩ := hprompt
    rw [List.foldl_cons, ih hprompt, tickTimes]
    rcases prompt_turn hawaits hnow with ⟨-, -, htick⟩ | ⟨held, -, -, htick⟩
    · simp only [htick, Nat.lt_irrefl, if_false]
    · simp only [htick, Nat.lt_succ_self, if_true, List.length_cons]
      omega

theorem Paced.length_eq (h : Paced settings pending ms times ends) :
    ends.length = times.length + pending.toList.length := by
  induction h with
  | stop => rw [List.length_nil, Nat.zero_add]
  | tick _ ih =>
    rw [List.length_cons, List.length_cons, ih]
    omega

theorem Paced.time_eq (h : Paced settings pending ms times ends) {k time : Nat}
    (htime : times[k]? = some time) :
    time = ms + ((ends.take (k + 1)).map (pause settings)).sum := by
  induction h generalizing k with
  | stop => cases htime
  | @tick ms held times ends _ ih =>
    cases k with
    | zero =>
      obtain rfl : ms + pause settings held = time := Option.some.inj htime
      simp
    | succ k =>
      rw [ih htime, List.take_succ_cons, List.map_cons, List.sum_cons, Nat.add_assoc]

theorem Paced.sorted (h : Paced settings pending ms times ends)
    (hpause : ∀ held, 0 < pause settings held) : (ms :: times).Pairwise (· < ·) := by
  induction h with
  | stop => exact List.pairwise_singleton ..
  | @tick ms held times ends _ ih =>
    have hfirst : ms < ms + pause settings held := Nat.lt_add_of_pos_right (hpause held)
    refine List.pairwise_cons.mpr ⟨?_, ih⟩
    intro time htime
    rcases List.mem_cons.mp htime with rfl | hlater
    · exact hfirst
    · exact Nat.lt_trans hfirst ((List.pairwise_cons.mp ih).1 time hlater)

theorem sum_pauses (settings : TradingSettings) (ends : List Bool) :
    (ends.map (pause settings)).sum = ends.count false * settings.buyPollIntervalMs.toNat +
      ends.count true * settings.sellPollIntervalMs.toNat := by
  induction ends with
  | nil => simp
  | cons held ends ih =>
    rw [List.map_cons, List.sum_cons, ih, List.count_cons, List.count_cons]
    cases held <;> simp [pause, Nat.add_mul] <;> omega

/-! ## Once it has bought -/

/-- No tick ends without a position from this phase on. -/
def Phase.hasBought : Phase → Bool
  | .fetching stance => stance.isHolding
  | .resting stance => stance.isHolding
  | .buying _ => false
  | .salvaging _ _ => false
  | _ => true

theorem Phase.hasBought_of_leadsTo {cancelled : Bool} {p q : Phase} (hbought : p.hasBought = true)
    (h : p.leadsTo cancelled q = true) : q.hasBought = true := by
  cases p with
  | fetching stance =>
    cases stance with
    | holding buy position =>
      cases q with
      | resting stance => cases stance <;> first | rfl | cases h
      | _ => first | rfl | cases h
    | _ => cases hbought
  | resting stance =>
    cases stance with
    | holding buy position =>
      cases q with
      | fetching stance => cases stance <;> first | rfl | cases h
      | _ => first | rfl | cases h
    | _ => cases hbought
  | buying seen => cases hbought
  | salvaging kind cause => cases hbought
  | _ =>
    cases q with
    | resting stance => cases stance <;> first | rfl | cases h
    | _ => first | rfl | cases h

theorem hasBought_takeTurn (t : Turn) (hbought : s.1.phase.hasBought = true) :
    (takeTurn plan s t).1.phase.hasBought = true := by
  cases hawaits : awaits plan s t with
  | false => rwa [takeTurn_unawaited hawaits]
  | true =>
    have hleads : s.1.phase.leadsTo t.cancelled
        (resume plan t.cancelled t.now s.1 t.reply).1.phase = true := leadsTo_resume hawaits
    rw [takeTurn_awaited hawaits]
    exact Phase.hasBought_of_leadsTo hbought hleads

theorem ending?_of_hasBought (hbought : r.phase.hasBought = true) (hends : r.ending? = some held) :
    held = true := by
  obtain ⟨stance, hphase, rfl⟩ := ending?_eq_some hends
  rwa [hphase] at hbought

theorem endings_of_hasBought (turns : List Turn) (hbought : s.1.phase.hasBought = true) :
    ∀ held ∈ endings plan s turns, held = true := by
  induction turns generalizing s with
  | nil => exact fun held hheld => ending?_of_hasBought hbought (Option.mem_toList.mp hheld)
  | cons t turns ih =>
    intro held hheld
    rcases List.mem_append.mp hheld with hhere | hlater
    · exact ending?_of_hasBought hbought (Option.mem_toList.mp hhere)
    · exact ih (hasBought_takeTurn t hbought) held hlater

/-- No tick ends without a position after one that ends with a position. -/
theorem endings_sorted (plan : Plan) (s : Run × List Effect) (turns : List Turn) :
    (endings plan s turns).Pairwise (· ≤ ·) := by
  induction turns generalizing s with
  | nil =>
    rw [endings]
    cases s.1.ending? <;> simp
  | cons t turns ih =>
    rw [endings]
    cases hends : s.1.ending? with
    | none => exact ih (takeTurn plan s t)
    | some held =>
      refine List.pairwise_cons.mpr ⟨?_, ih (takeTurn plan s t)⟩
      intro later hlater
      cases held with
      | false => exact Bool.false_le later
      | true =>
        -- The run has bought, so all later ticks end with a position as well.
        obtain ⟨stance, hphase, hholding⟩ := ending?_eq_some hends
        have hbought : s.1.phase.hasBought = true := by
          rw [hphase]
          exact hholding.symm
        rw [endings_of_hasBought turns (hasBought_takeTurn t hbought) later hlater]

theorem endings_le {k : Nat} {later : Bool} (hheld : (endings plan s turns)[k]? = some held)
    (hlater : (endings plan s turns)[k + 1]? = some later) : held ≤ later := by
  obtain ⟨_, rfl⟩ := List.getElem?_eq_some_iff.mp hheld
  obtain ⟨_, rfl⟩ := List.getElem?_eq_some_iff.mp hlater
  have hsorted := List.pairwise_iff_getElem.mp (endings_sorted plan s turns)
  exact hsorted k (k + 1) _ _ (Nat.lt_succ_self k)

theorem endings_append (plan : Plan) (s : Run × List Effect) (before : List Turn) (t : Turn)
    (later : List Turn) : endings plan s (before ++ t :: later) =
      endings plan s before ++
        endings plan (takeTurn plan (before.foldl (takeTurn plan) s) t) later := by
  induction before generalizing s with
  | nil => rfl
  | cons first before ih =>
    rw [List.cons_append, endings, endings, ih, List.foldl_cons, List.append_assoc]

/-! ## The grid -/

/-- The time of a tick is given by how the ticks before it ended. -/
theorem Paced.at (h : Paced settings pending ms times ends) {k time : Nat}
    (htime : (ms :: times)[k]? = some time) :
    k ≤ ends.length ∧ time = ms + ((ends.take k).map (pause settings)).sum := by
  cases k with
  | zero =>
    obtain rfl : ms = time := Option.some.inj htime
    simp
  | succ k =>
    have hk : k < times.length := Nat.lt_of_succ_lt_succ (List.getElem?_eq_some_iff.mp htime).1
    refine ⟨?_, h.time_eq htime⟩
    rw [h.length_eq]
    omega

theorem Paced.gap (h : Paced settings pending ms times ends) {k a b : Nat}
    (ha : (ms :: times)[k]? = some a) (hb : (ms :: times)[k + 1]? = some b) :
    ∃ held, ends[k]? = some held ∧ b = a + pause settings held := by
  obtain ⟨-, rfl⟩ := h.at ha
  obtain ⟨hlength, rfl⟩ := h.at hb
  refine ⟨ends[k], List.getElem?_eq_getElem hlength, ?_⟩
  rw [List.take_succ_eq_append_getElem hlength, List.map_append, List.sum_append,
    List.map_singleton, List.sum_singleton, Nat.add_assoc]

theorem held_since_buy {cancelled : Bool} {before later : List Turn} {seen : Snapshot}
    {bought : Fill} {k : Nat}
    (hprompt : Prompt plan (play plan cancelled now []) now.ms (before ++ t :: later))
    (hphase : (play plan cancelled now before).1.phase = .buying seen)
    (hreply : t.reply = .order (.ok bought))
    (hk : (play plan cancelled now before).1.tick ≤ k + 1)
    (hheld : (endings plan (play plan cancelled now []) (before ++ t :: later))[k]? = some held) :
    held = true := by
  have hbefore := prompt_append hprompt
  have hpaced := (paced_prompt hbefore).length_eq
  have htick : (play plan cancelled now before).1.tick = (play plan cancelled now []).1.tick +
      (tickTimes plan (play plan cancelled now []) before).length := tick_eq hbefore
  have hfirst : (play plan cancelled now []).1.tick = 1 := tick_nextTick cancelled .looking
  have hworks : (before.foldl (takeTurn plan) (play plan cancelled now [])).1.ending? = none := by
    change (play plan cancelled now before).1.ending? = none
    rw [ending?, hphase]
  have hbought : (takeTurn plan (play plan cancelled now before) t).1.phase.hasBought = true := by
    have hawaits : awaits plan (play plan cancelled now before) t = true := by
      rw [awaits, request?, hphase, hreply]
      rfl
    rw [takeTurn_awaited hawaits, hreply]
    simp only [resume, hphase]
    rfl
  -- Each tick before the one with the buy has ended, and that one has not.
  rw [hworks, Option.toList_none, List.length_nil, Nat.add_zero] at hpaced
  rw [endings_append, List.getElem?_append_right (by omega)] at hheld
  exact endings_of_hasBought later hbought held (List.mem_of_getElem? hheld)

/-- A run with valid settings whose requests are answered at once, in whatever way, begins each tick
after as many pauses of either kind as there were ticks before it that ended without a position and
with one. So its ticks come one after the other on the grid of the pause with a position, the gaps
do not grow, and from the tick with the buy on each gap is that pause. -/
theorem ticks_keep_pace (plan : Plan) (cancelled : Bool) (now : Moment) (turns : List Turn)
    (hvalid : plan.settings.validate = .ok ())
    (hprompt : Prompt plan (play plan cancelled now []) now.ms turns) :
    let start := play plan cancelled now []
    let times := now.ms :: tickTimes plan start turns
    let ends := endings plan start turns
    let buy := plan.settings.buyPollIntervalMs.toNat
    let sell := plan.settings.sellPollIntervalMs.toNat
    times.length = (play plan cancelled now turns).1.tick ∧
    (∀ k time, times[k]? = some time → k ≤ ends.length ∧
      time = now.ms + (ends.take k).count false * buy + (ends.take k).count true * sell) ∧
    times.Pairwise (· < ·) ∧
    (∀ time ∈ times, now.ms ≤ time ∧ sell ∣ time - now.ms) ∧
    (∀ k a b c, times[k]? = some a → times[k + 1]? = some b → times[k + 2]? = some c →
      c - b ≤ b - a) ∧
    (∀ before fill later seen bought, turns = before ++ fill :: later →
      (play plan cancelled now before).1.phase = .buying seen → fill.reply = .order (.ok bought) →
      ∀ k a b, (play plan cancelled now before).1.tick ≤ k + 1 → times[k]? = some a →
        times[k + 1]? = some b → b = a + sell) := by
  intro start times ends buy sell
  obtain ⟨hsell, hbuy, hmultiple⟩ := pauses_of_valid hvalid
  have hpaced : Paced plan.settings _ now.ms (tickTimes plan start turns) ends :=
    paced_prompt hprompt
  have hfirst : start.1.tick = 1 := tick_nextTick cancelled .looking
  have htime : ∀ k time, times[k]? = some time → k ≤ ends.length ∧
      time = now.ms + (ends.take k).count false * buy + (ends.take k).count true * sell := by
    intro k time hk
    obtain ⟨hlength, rfl⟩ := hpaced.at hk
    rw [sum_pauses, Nat.add_assoc]
    exact ⟨hlength, rfl⟩
  refine ⟨?_, htime, ?_, ?_, ?_, ?_⟩
  · have htick : (play plan cancelled now turns).1.tick =
        start.1.tick + (tickTimes plan start turns).length := tick_eq hprompt
    rw [htick, hfirst, List.length_cons, Nat.add_comm]
  · refine hpaced.sorted fun held => ?_
    cases held
    · exact hbuy
    · exact hsell
  · intro time hmem
    obtain ⟨k, hk⟩ := List.mem_iff_getElem?.mp hmem
    obtain ⟨-, rfl⟩ := htime k time hk
    rw [Nat.add_assoc, Nat.add_sub_cancel_left]
    refine ⟨Nat.le_add_right .., Nat.dvd_add ?_ (Nat.dvd_mul_left ..)⟩
    exact Nat.dvd_mul_left_of_dvd hmultiple _
  · intro k a b c ha hb hc
    obtain ⟨held, hheld, rfl⟩ := hpaced.gap ha hb
    -- The second gap is no longer, since the later tick ends with a position if the earlier does.
    obtain ⟨later, hlater, rfl⟩ := hpaced.gap hb hc
    rw [Nat.add_sub_cancel_left, Nat.add_sub_cancel_left]
    exact pause_le (Nat.le_of_dvd hbuy hmultiple) (endings_le hheld hlater)
  · intro before fill later seen bought hsplit hphase hreply k a b hk ha hb
    subst hsplit
    obtain ⟨held, hheld, rfl⟩ := hpaced.gap ha hb
    rw [held_since_buy hprompt hphase hreply hk hheld]
    rfl

/-- Before and after a buy a look fails, and then an order. -/
def promptTurns : List Turn :=
  [⟨false, ⟨0, default⟩, .snapshot (.error (.marketData "down"))⟩,
    ⟨false, ⟨1000, default⟩, .rested⟩,
    ⟨false, ⟨1000, default⟩, .snapshot (.ok default)⟩,
    ⟨false, ⟨1000, default⟩, .order (.error (.rpc "503"))⟩,
    ⟨false, ⟨2000, default⟩, .rested⟩,
    ⟨false, ⟨2000, default⟩, .snapshot (.ok default)⟩,
    ⟨false, ⟨2000, default⟩, .order (.ok (sampleFill .buy .one))⟩,
    ⟨false, ⟨2000, default⟩, .stored (.ok ())⟩,
    ⟨false, ⟨2250, default⟩, .rested⟩,
    ⟨false, ⟨2250, default⟩, .snapshot (.error (.marketData "down"))⟩,
    ⟨false, ⟨2500, default⟩, .rested⟩,
    ⟨false, ⟨2500, default⟩, .snapshot (.ok default)⟩,
    ⟨false, ⟨2500, default⟩, .order (.error (.rpc "503"))⟩,
    ⟨false, ⟨2750, default⟩, .rested⟩,
    ⟨false, ⟨2750, default⟩, .snapshot (.ok default)⟩]

theorem prompt_run_begins_six_ticks :
    let start := play eagerPlan false ⟨0, default⟩ []
    let times := 0 :: tickTimes eagerPlan start promptTurns
    eagerPlan.settings.validate = .ok () ∧ Prompt eagerPlan start 0 promptTurns ∧
      times = [0, 1000, 2000, 2250, 2500, 2750] ∧ times.Pairwise (· < ·) ∧
      ∀ k a b, 2 ≤ k → times[k]? = some a → times[k + 1]? = some b → b = a + 250 := by
  intro start times
  have hvalid : eagerPlan.settings.validate = .ok () := rfl
  have hprompt : Prompt eagerPlan start 0 promptTurns := by decide +kernel
  obtain ⟨-, -, hsorted, -, -, hbought⟩ :=
    ticks_keep_pace eagerPlan false ⟨0, default⟩ promptTurns hvalid hprompt
  refine ⟨hvalid, hprompt, by decide +kernel, hsorted, ?_⟩
  intro k a b hk ha hb
  exact hbought (promptTurns.take 6) _ (promptTurns.drop 7) _ _ rfl rfl rfl k a b
    (Nat.succ_le_succ hk) ha hb

end LaunchDesk.Run
