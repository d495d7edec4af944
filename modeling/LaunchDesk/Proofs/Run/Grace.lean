import LaunchDesk.Proofs.Run.Cancelled
import LaunchDesk.Proofs.Run.Taken
import Mathlib.Algebra.Order.Floor.Div

/-!
# The time before a run leaves

A run whose strategy wants to leave gives no orders any more. It goes on looking, and it leaves at
the first look that is answered when its time is up, whatever the answer is, or at the first tick
before that which finds it cancelled.
-/

namespace LaunchDesk.Run

variable {plan : Plan} {now : Moment} {r : Run} {s : Run × List Effect} {t : Turn}
variable {w : List Effect} {deadline ms : Nat} {turns : List Turn}

/-! ## Terms -/

/-- The turn makes the run note an exit signal of its strategy. -/
def Signals (plan : Plan) (s : Run × List Effect) (t : Turn) : Prop :=
  ∃ entry, entry.action = .exitSignal ∧
    (takeTurn plan s t).1.history = s.1.history ++ [entry]

/-- Why a turn makes a run leave that stays up to the deadline. -/
def Turn.parting? (deadline : Nat) (t : Turn) : Option ExitReason :=
  match t.reply with
  | .snapshot _ => if deadline ≤ t.now.ms then some .strategyExit else none
  | .rested => if t.cancelled then some .stopped else none
  | _ => none

/-- How a run stands that stays up to the deadline or has left before: between two looks or at one,
or with its outcome on the way to the store or stored. -/
def Lingers (deadline : Nat) (phase : Phase) : Option ExitReason → Prop
  | none => phase = .resting (.leaving deadline) ∨ phase = .fetching (.leaving deadline)
  | some reason => ∃ departure, departure.reason = reason ∧
      ((∃ report, phase = .recording (.exited departure) report) ∨
        phase = .ended (.ok (.exited departure)))

def Effect.isOrder : Effect → Bool
  | .call (.buy _) => true
  | .call (.sell _) => true
  | .call (.salvage _ _) => true
  | _ => false

def Effect.isLook : Effect → Bool
  | .call .snapshot => true
  | _ => false

/-- How often the market was looked at. -/
def looks (w : List Effect) : Nat := w.countP Effect.isLook

/-! ## The signal -/

/-- What a run has noted when it has gone on: no more than one thing, and that not a signal. -/
def Unsignalled (r : Run) (p : Progress) : Prop :=
  p.1.entries = r.entries ∨
    ∃ entry, entry.action ≠ .exitSignal ∧ p.1.entries = entry :: r.entries

theorem unsignalled_of {p : Progress} {entry : Entry} (hentries : p.1.entries = entry :: r.entries)
    (haction : entry.action ≠ .exitSignal) : Unsignalled r p := .inr ⟨entry, haction, hentries⟩

theorem unsignalled_nextTick (cancelled : Bool) (stance : Stance) :
    Unsignalled r (nextTick plan cancelled now r stance) := by
  cases stance with
  | holding buy position => exact .inl rfl
  | _ =>
    cases cancelled with
    | false => exact .inl rfl
    | true =>
      refine unsignalled_of rfl ?_
      simp

theorem unsignalled_watch (cancelled : Bool) (seen : Snapshot) (buy : Fill) (position : Position) :
    Unsignalled r (watch plan cancelled now r seen buy position) := by
  simp only [watch]
  split
  · exact .inl rfl
  split
  · exact unsignalled_of (entries_trySell ..) (by simp)
  split
  · exact unsignalled_of (entries_trySell ..) (by simp)
  split
  · exact unsignalled_of (entries_endTick ..) (by simp)
  · exact unsignalled_of (entries_endTick ..) (by simp)

theorem unsignalled_closed (seen : Snapshot) (buy sell : Fill) (closure : Closure)
    (stored : Except Fault Unit) :
    Unsignalled r (closed plan now r seen buy sell closure stored) := by
  simp only [closed, after]
  split
  · exact unsignalled_of rfl (by simp)
  · exact unsignalled_of rfl (by simp)

theorem unsignalled_buyFailed (seen : Snapshot) (cause : ExecutionFault) :
    Unsignalled r (buyFailed plan now r seen cause) := by
  simp only [buyFailed]
  split
  · exact unsignalled_of rfl (by simp)
  · exact unsignalled_of (entries_endTick plan now ..) (by simp)

/-- Only a look of a run that has not decided yet leads to a signal, and only if the strategy wants
to leave. -/
theorem unsignalled_resume (cancelled : Bool) (reply : Reply)
    (hstays : ∀ seen, r.phase = .fetching .looking → reply = .snapshot (.ok seen) →
      plan.strategy.shouldExit none seen = false) :
    Unsignalled r (resume plan cancelled now r reply) := by
  rcases resume_cases plan cancelled now r reply with hawaits | hsame
  · obtain ⟨tick, startMs, entries, phase⟩ := r
    cases hawaits with
    | seen stance seen =>
      cases stance with
      | looking =>
        change Unsignalled _ (lookAt plan now _ seen)
        rw [lookAt, if_neg (Bool.eq_false_iff.mp (hstays seen rfl rfl))]
        split
        · exact unsignalled_of rfl (by simp)
        · exact unsignalled_of (entries_endTick ..) (by simp)
      | leaving deadline => exact unsignalled_of (entries_endTick plan now ..) (by simp)
      | holding buy position => exact unsignalled_watch cancelled seen buy position
    | unseen stance fault => exact unsignalled_of (entries_endTick plan now ..) (by simp)
    | unbought seen cause => exact unsignalled_buyFailed ..
    | opened seen buy position answer => exact unsignalled_of rfl (by simp)
    | sold seen buy position reason sell =>
      simp only [resume, sold]
      split <;> exact .inl rfl
    | unsold seen buy position reason cause => exact unsignalled_of rfl (by simp)
    | closed seen buy sell position closure answer => exact unsignalled_closed ..
    | rested stance => exact unsignalled_nextTick ..
    | _ => exact .inl rfl
  · rw [hsame]
    exact .inl rfl

theorem not_unsignalled {p : Progress} {entry : Entry} (haction : entry.action = .exitSignal)
    (hhistory : p.1.history = r.history ++ [entry]) : ¬ Unsignalled r p := by
  have hentries : p.1.entries = entry :: r.entries := by
    rw [history, history, ← List.reverse_cons] at hhistory
    exact List.reverse_injective hhistory
  rintro (hsame | ⟨other, hother, hcons⟩)
  · exact List.cons_ne_self _ _ (hentries.symm.trans hsame)
  · obtain ⟨rfl, -⟩ := List.cons.inj (hentries.symm.trans hcons)
    exact hother haction

theorem Signals.decides (h : Signals plan s t) :
    awaits plan s t = true ∧ s.1.phase = .fetching .looking ∧
      ∃ seen, t.reply = .snapshot (.ok seen) ∧ plan.strategy.shouldExit none seen = true := by
  obtain ⟨entry, haction, hhistory⟩ := h
  cases hawaits : awaits plan s t with
  | false =>
    rw [takeTurn_unawaited hawaits] at hhistory
    exact absurd (.inl rfl) (not_unsignalled (p := (s.1, [])) haction hhistory)
  | true =>
    rw [takeTurn_awaited hawaits] at hhistory
    by_contra hnot
    refine not_unsignalled haction hhistory (unsignalled_resume t.cancelled t.reply ?_)
    intro seen hphase hreply
    by_contra hexit
    exact hnot ⟨rfl, hphase, seen, hreply, eq_true_of_ne_false hexit⟩

/-! ## One turn -/

theorem endTick_due (plan : Plan) (r : Run) (h : deadline ≤ now.ms) :
    Lingers deadline (endTick plan now r (.leaving deadline)).1.phase (some .strategyExit) := by
  simp only [endTick, if_pos h]
  exact ⟨_, rfl, .inl ⟨_, rfl⟩⟩

theorem endTick_early (plan : Plan) (r : Run) (h : ¬ deadline ≤ now.ms) :
    (endTick plan now r (.leaving deadline)).1.phase = .resting (.leaving deadline) := by
  simp only [endTick, if_neg h]
  rfl

theorem lingers_endTick (plan : Plan) (now : Moment) (r : Run) (deadline : Nat) :
    Lingers deadline (endTick plan now r (.leaving deadline)).1.phase
      (if deadline ≤ now.ms then some .strategyExit else none) := by
  split
  · next h => exact endTick_due plan r h
  · next h => exact .inl (endTick_early plan r h)

theorem resume_look (plan : Plan) (now : Moment) (hphase : r.phase = .fetching (.leaving deadline))
    (answer : Except Fault Snapshot) (cancelled : Bool) :
    ∃ noted, (resume plan cancelled now r (.snapshot answer)).1 =
      (endTick plan now noted (.leaving deadline)).1 := by
  cases answer with
  | ok seen =>
    simp only [resume, hphase]
    exact ⟨_, rfl⟩
  | error fault =>
    simp only [resume, hphase]
    exact ⟨_, rfl⟩

theorem Lingers.resume {parted : Option ExitReason} (h : Lingers deadline r.phase parted)
    (hreply : (r.request? plan).any (·.awaits t.reply) = true) :
    Lingers deadline (Run.resume plan t.cancelled t.now r t.reply).1.phase
      (parted.or (t.parting? deadline)) := by
  obtain ⟨cancelled, now, reply⟩ := t
  cases parted with
  | none =>
    rcases h with hphase | hphase
    · obtain rfl : reply = .rested := rested_of_awaits hphase hreply
      simp only [Run.resume, hphase]
      cases cancelled with
      | false => exact .inr rfl
      | true => exact ⟨_, rfl, .inl ⟨_, rfl⟩⟩
    · obtain ⟨answer, rfl⟩ : ∃ answer, reply = .snapshot answer := snapshot_of_awaits hphase hreply
      obtain ⟨noted, hnoted⟩ := resume_look plan now hphase answer cancelled
      rw [hnoted]
      exact lingers_endTick ..
  | some reason =>
    obtain ⟨departure, hreason, ⟨report, hphase⟩ | hphase⟩ := h
    · obtain ⟨answer, rfl⟩ : ∃ answer, reply = .stored answer := stored_of_awaits hphase hreply
      simp only [Run.resume, hphase]
      exact ⟨departure, hreason, .inr rfl⟩
    · rw [request?, hphase] at hreply
      cases hreply

/-- A run that lingers calls for a look or to have its outcome stored, and for nothing else. -/
theorem Lingers.orders {p : Progress} {parted : Option ExitReason}
    (h : Lingers deadline p.1.phase parted) : ∀ e ∈ effects plan p, e.isOrder = false := by
  refine not_isCall_of_mem_effects (fun _ => rfl) ?_
  rw [request?]
  cases parted with
  | none => rcases h with hphase | hphase <;> rw [hphase] <;> rfl
  | some reason =>
    obtain ⟨departure, -, ⟨report, hphase⟩ | hphase⟩ := h <;> rw [hphase] <;> rfl

/-! ## All turns -/

/-- A run that noted a signal after `w` had been seen has come to `s`, and the turns since the one
with the signal are `turns`. -/
structure Parts (plan : Plan) (deadline : Nat) (w : List Effect) (s : Run × List Effect)
    (turns : List Turn) : Prop where
  lingers : Lingers deadline s.1.phase (turns.findSome? (Turn.parting? deadline))
  orders : ∃ more, s.2 = w ++ more ∧ ∀ e ∈ more, e.isOrder = false

theorem orders_ofReply (reply : Reply) : ∀ e ∈ Effect.ofReply reply, e.isOrder = false := by
  cases reply <;> simp [Effect.ofReply, Effect.isOrder]

theorem Parts.take (h : Parts plan deadline w s turns) (hawaits : awaits plan s t = true) :
    Parts plan deadline w (takeTurn plan s t) (turns ++ [t]) := by
  have hlingers := h.lingers.resume hawaits
  rw [takeTurn_awaited hawaits]
  constructor
  · rw [List.findSome?_append, List.findSome?_singleton]
    exact hlingers
  · obtain ⟨more, hmore, horders⟩ := h.orders
    refine ⟨more ++ (Effect.ofReply t.reply ++
      effects plan (resume plan t.cancelled t.now s.1 t.reply)), ?_, ?_⟩
    · simp only [hmore, List.append_assoc]
    · rw [List.forall_mem_append, List.forall_mem_append]
      exact ⟨horders, orders_ofReply t.reply, hlingers.orders⟩

theorem Signals.ends_tick (h : Signals plan s t) :
    ∃ noted, (takeTurn plan s t).1 = (endTick plan t.now noted
      (.leaving (t.now.ms + plan.settings.maxWaitAfterDecisionMs.toNat))).1 := by
  obtain ⟨hawaits, hphase, seen, hreply, hexit⟩ := h.decides
  rw [takeTurn_awaited hawaits, hreply]
  simp only [resume, hphase, seeing, lookAt, hexit, if_true]
  exact ⟨_, rfl⟩

theorem Signals.parts (h : Signals plan s t) :
    Parts plan (t.now.ms + plan.settings.maxWaitAfterDecisionMs.toNat) s.2 (takeTurn plan s t)
      [t] := by
  obtain ⟨hawaits, -, seen, hreply, -⟩ := h.decides
  obtain ⟨noted, hnoted⟩ := h.ends_tick
  have hlingers := lingers_endTick plan t.now noted
    (t.now.ms + plan.settings.maxWaitAfterDecisionMs.toNat)
  rw [← hnoted] at hlingers
  refine ⟨?_, ?_⟩
  · rw [List.findSome?_singleton, Turn.parting?, hreply]
    exact hlingers
  · rw [takeTurn_awaited hawaits] at hlingers ⊢
    refine ⟨_, List.append_assoc .., ?_⟩
    rw [List.forall_mem_append]
    exact ⟨orders_ofReply t.reply, hlingers.orders⟩

/-! ## Looks -/

theorem looks_takeTurn (hawaits : awaits plan s t = true) :
    looks (takeTurn plan s t).2 = looks s.2 +
      (((takeTurn plan s t).1.request? plan).elim [] Effect.ofRequest).countP Effect.isLook := by
  have hreply : (Effect.ofReply t.reply).countP Effect.isLook = 0 := by
    cases t.reply <;> rfl
  rw [takeTurn_awaited hawaits, looks, looks, List.countP_append, List.countP_append, hreply,
    calls_effects plan _ fun _ => rfl, Nat.add_zero]

theorem looks_left {reason : ExitReason} (h : Lingers deadline s.1.phase (some reason))
    (turns : List Turn) :
    Lingers deadline (turns.foldl (takeTurn plan) s).1.phase (some reason) ∧
      looks (turns.foldl (takeTurn plan) s).2 = looks s.2 := by
  refine taken_induction
    (P := fun u _ => Lingers deadline u.1.phase (some reason) ∧ looks u.2 = looks s.2)
    ⟨h, rfl⟩ ?_ turns
  rintro u ts t ⟨hlingers, hlooks⟩ hawaits
  have hnext : Lingers deadline (takeTurn plan u t).1.phase (some reason) := by
    rw [takeTurn_awaited hawaits]
    exact hlingers.resume hawaits
  refine ⟨hnext, ?_⟩
  rw [looks_takeTurn hawaits, hlooks]
  obtain ⟨departure, -, ⟨report, hphase⟩ | hphase⟩ := hnext
  · rw [request?, hphase]
    rfl
  · rw [request?, hphase]
    rfl

theorem take_rest (hphase : s.1.phase = .resting (.leaving deadline))
    (hawaits : awaits plan s t = true) (hcancelled : t.cancelled = false) :
    (takeTurn plan s t).1.phase = .fetching (.leaving deadline) ∧
      looks (takeTurn plan s t).2 = looks s.2 + 1 := by
  have hnext : (takeTurn plan s t).1.phase = .fetching (.leaving deadline) := by
    have hreply : t.reply = .rested := rested_of_awaits hphase hawaits
    rw [takeTurn_awaited hawaits, hreply]
    simp only [resume, hphase, hcancelled]
    rfl
  refine ⟨hnext, ?_⟩
  rw [looks_takeTurn hawaits, request?, hnext]
  rfl

theorem take_look (hphase : s.1.phase = .fetching (.leaving deadline))
    (hawaits : awaits plan s t = true) :
    looks (takeTurn plan s t).2 = looks s.2 ∧
      ∃ noted, (takeTurn plan s t).1 = (endTick plan t.now noted (.leaving deadline)).1 := by
  have hnext : ∃ noted, (takeTurn plan s t).1 =
      (endTick plan t.now noted (.leaving deadline)).1 := by
    obtain ⟨answer, hreply⟩ := snapshot_of_awaits hphase hawaits
    rw [takeTurn_awaited hawaits, hreply]
    exact resume_look plan t.now hphase answer t.cancelled
  refine ⟨?_, hnext⟩
  obtain ⟨noted, hnoted⟩ := hnext
  rw [looks_takeTurn hawaits, hnoted]
  simp only [endTick]
  split <;> rfl

theorem ceilDiv_next {rest pause : Nat} (hrest : 0 < rest) (hpause : 0 < pause) :
    rest ⌈/⌉ pause = (rest - pause) ⌈/⌉ pause + 1 := by
  rw [Nat.ceilDiv_eq_add_pred_div, Nat.ceilDiv_eq_add_pred_div,
    show rest + pause - 1 = rest - 1 + pause by omega, Nat.add_div_right _ hpause]
  rcases Nat.le_total pause rest with hle | hle
  · rw [show rest - pause + pause - 1 = rest - 1 by omega]
  · rw [Nat.div_eq_of_lt (by omega : rest - 1 < pause),
      Nat.div_eq_of_lt (by omega : rest - pause + pause - 1 < pause)]

/-- A run that had `rest` left until the deadline has come from `s` to `u` in turns that came at
once: it looks once in each pause, and when it has looked often enough it leaves. -/
structure WaitsOut (deadline rest pause : Nat) (s u : Run × List Effect) (turns : List Turn) :
    Prop where
  looks : looks u.2 = looks s.2 + min ((turns.length + 1) / 2) (rest ⌈/⌉ pause)
  leaves : 2 * (rest ⌈/⌉ pause) ≤ turns.length → Lingers deadline u.1.phase (some .strategyExit)

/-- Between its decision and the deadline a run looks once for each pause. -/
theorem waitsOut_prompt {pause : Nat} (hpause : plan.settings.buyPollIntervalMs.toNat = pause)
    (hpositive : 0 < pause) (hphase : s.1.phase = .resting (.leaving deadline))
    (hearly : ms < deadline) (hprompt : Prompt plan s ms turns)
    (hcancelled : ∀ t ∈ turns, t.cancelled = false) :
    WaitsOut deadline (deadline - ms) pause s (turns.foldl (takeTurn plan) s) turns := by
  have hnext := ceilDiv_next (Nat.sub_pos_of_lt hearly) hpositive
  -- Two turns at a time: a pause ends, and the look after it is answered.
  induction turns using List.twoStepInduction generalizing s ms with
  | nil =>
    constructor
    · simp
    · rw [List.length_nil]
      omega
  | singleton t =>
    obtain ⟨hawaits, -, -⟩ := hprompt
    constructor
    · have hlooks := (take_rest hphase hawaits (hcancelled t List.mem_cons_self)).2
      simp only [List.foldl_cons, List.foldl_nil, List.length_singleton, hlooks]
      omega
    · rw [List.length_singleton]
      omega
  | cons_cons t v turns ih _ =>
    obtain ⟨hrest, hrested, hlook, hlooked, hprompt⟩ := hprompt
    obtain ⟨hfetching, hfirst⟩ := take_rest hphase hrest (hcancelled t List.mem_cons_self)
    have hnow : v.now.ms = ms + pause := by
      rw [request?, hfetching] at hlooked
      rw [request?, hphase] at hrested
      rw [hlooked, hrested, ← hpause]
      rfl
    obtain ⟨hsame, noted, hnoted⟩ := take_look hfetching hlook
    rw [hfirst] at hsame
    by_cases hdue : deadline ≤ v.now.ms
    · have hleft := endTick_due plan noted hdue
      rw [← hnoted] at hleft
      obtain ⟨hlingers, hlooks⟩ := looks_left hleft turns
      have hlast : (deadline - ms) ⌈/⌉ pause = 1 := by
        rw [hnext, Nat.sub_eq_zero_of_le (by omega), zero_ceilDiv]
      refine ⟨?_, fun _ => hlingers⟩
      rw [List.foldl_cons, List.foldl_cons, hlooks, hsame, hlast, List.length_cons]
      omega
    · have hresting := endTick_early plan noted hdue
      rw [← hnoted] at hresting
      have hlater := Nat.lt_of_not_le hdue
      obtain ⟨hlooks, hleaves⟩ := ih hresting hlater hprompt
        (fun t ht => hcancelled t (List.mem_cons_of_mem _ (List.mem_cons_of_mem _ ht)))
        (ceilDiv_next (Nat.sub_pos_of_lt hlater) hpositive)
      rw [show deadline - v.now.ms = deadline - ms - pause by omega] at hlooks hleaves
      constructor
      · rw [List.foldl_cons, List.foldl_cons, hlooks, hsame, hnext, List.length_cons,
          List.length_cons]
        omega
      · rw [List.length_cons, List.length_cons, hnext]
        intro henough
        exact hleaves (by omega)

/-- After the turn with the signal the whole time is left, and if there is none the run leaves in
that turn. -/
theorem Signals.waitsOut (h : Signals plan s t) (hvalid : plan.settings.validate = .ok ())
    (hprompt : Prompt plan (takeTurn plan s t) t.now.ms turns)
    (hcancelled : ∀ v ∈ turns, v.cancelled = false) :
    WaitsOut (t.now.ms + plan.settings.maxWaitAfterDecisionMs.toNat)
      plan.settings.maxWaitAfterDecisionMs.toNat plan.settings.buyPollIntervalMs.toNat
      (takeTurn plan s t) (turns.foldl (takeTurn plan) (takeTurn plan s t)) turns := by
  obtain ⟨noted, hnoted⟩ := h.ends_tick
  rcases Nat.eq_zero_or_pos plan.settings.maxWaitAfterDecisionMs.toNat with hnone | hsome
  · have hdue : t.now.ms + plan.settings.maxWaitAfterDecisionMs.toNat ≤ t.now.ms := by omega
    have hleft := endTick_due plan noted hdue
    rw [← hnoted] at hleft
    obtain ⟨hlingers, hlooks⟩ := looks_left hleft turns
    refine ⟨?_, fun _ => hlingers⟩
    rw [hlooks, hnone, zero_ceilDiv, Nat.min_zero, Nat.add_zero]
  · have hearly := Nat.lt_add_of_pos_right (n := t.now.ms) hsome
    have hresting := endTick_early plan noted (Nat.not_le_of_lt hearly)
    rw [← hnoted] at hresting
    have hpositive := (pauses_of_valid hvalid).2.1
    have hwaits := waitsOut_prompt rfl hpositive hresting hearly hprompt hcancelled
    rwa [Nat.add_sub_cancel_left] at hwaits

/-- A run that notes an exit signal of its strategy gives no order from then on. It leaves in the
first turn that answers a look when its time is up, be it the turn of the signal itself, or at the
first tick before that which finds it cancelled; and it ends when the outcome has been stored. If
all is answered at once and nobody cancels it, it looks as often as a pause begins before its time
is up. -/
theorem leaves_when_time_is_up (plan : Plan) (cancelled : Bool) (now : Moment)
    (before : List Turn) (t : Turn) (h : Signals plan (play plan cancelled now before) t)
    (later : List Turn) :
    let s := play plan cancelled now before
    let signalled := takeTurn plan s t
    let u := play plan cancelled now (before ++ t :: later)
    let grace := plan.settings.maxWaitAfterDecisionMs.toNat
    let deadline := t.now.ms + grace
    (∃ more, u.2 = s.2 ++ more ∧ ∀ e ∈ more, e.isOrder = false) ∧
    Lingers deadline u.1.phase
      ((t :: taken plan signalled later).findSome? (Turn.parting? deadline)) ∧
    (∀ outcome report v answer, u.1.phase = .recording outcome report →
      v.reply = .stored answer → (takeTurn plan u v).1.phase = .ended (.ok outcome)) ∧
    (plan.settings.validate = .ok () → Prompt plan signalled t.now.ms later →
      (∀ v ∈ later, v.cancelled = false) →
      WaitsOut deadline grace plan.settings.buyPollIntervalMs.toNat signalled u later) := by
  intro s signalled u grace deadline
  have hu : u = later.foldl (takeTurn plan) signalled := play_append plan cancelled now before _
  have hparts : Parts plan deadline s.2 u (t :: taken plan signalled later) := by
    rw [hu]
    refine taken_induction (P := fun u ts => Parts plan deadline s.2 u (t :: ts)) h.parts ?_ later
    intro u ts v hparts hawaits
    exact hparts.take hawaits
  refine ⟨hparts.orders, hparts.lingers, ?_, ?_⟩
  · intro outcome report v answer hphase hreply
    have hawaits : awaits plan u v = true := by
      rw [awaits, request?, hphase, hreply]
      rfl
    rw [takeTurn_awaited hawaits, hreply]
    simp only [resume, hphase]
    rfl
  · intro hvalid hprompt hcancelled
    rw [hu]
    exact h.waitsOut hvalid hprompt hcancelled

/-- A plan that leaves as soon as it has looked, and takes one and a half pauses for it. -/
def patientPlan : Plan :=
  { eagerPlan with
    settings := { maxWaitAfterDecisionMs := 1500 }
    strategy := { eagerPlan.strategy with shouldExit := fun _ _ => true } }

/-- The looks are answered at once, the second one with a failure. -/
def patientTurns : List Turn :=
  [⟨false, ⟨1007, default⟩, .rested⟩,
    ⟨false, ⟨1007, default⟩, .snapshot (.ok default)⟩,
    ⟨false, ⟨2007, default⟩, .rested⟩,
    ⟨false, ⟨2007, default⟩, .snapshot (.error (.store "down"))⟩]

theorem patient_run_looks_twice_more :
    let t : Turn := ⟨false, ⟨7, default⟩, .snapshot (.ok default)⟩
    let s := play patientPlan false ⟨0, default⟩ []
    let u := play patientPlan false ⟨0, default⟩ (t :: patientTurns)
    Signals patientPlan s t ∧ patientPlan.settings.validate = .ok () ∧
      Prompt patientPlan (takeTurn patientPlan s t) 7 patientTurns ∧
      looks u.2 = looks (takeTurn patientPlan s t).2 + 2 ∧
      Lingers 1507 u.1.phase (some .strategyExit) := by
  intro t s u
  have hsignals : Signals patientPlan s t := ⟨_, rfl, rfl⟩
  have hvalid : patientPlan.settings.validate = .ok () := rfl
  have hprompt : Prompt patientPlan (takeTurn patientPlan s t) 7 patientTurns := by
    decide +kernel
  obtain ⟨-, -, -, hwaits⟩ :=
    leaves_when_time_is_up patientPlan false ⟨0, default⟩ [] t hsignals patientTurns
  obtain ⟨hlooks, hleaves⟩ := hwaits hvalid hprompt (by simp [patientTurns])
  have htwo : patientPlan.settings.maxWaitAfterDecisionMs.toNat ⌈/⌉
      patientPlan.settings.buyPollIntervalMs.toNat = 2 := by
    rw [Nat.ceilDiv_eq_add_pred_div]
    decide
  have hdeadline : t.now.ms + patientPlan.settings.maxWaitAfterDecisionMs.toNat = 1507 := by decide
  have hu : play patientPlan false ⟨0, default⟩ ([] ++ t :: patientTurns) = u := rfl
  rw [htwo, hu] at hlooks hleaves
  rw [hdeadline] at hleaves
  exact ⟨hsignals, hvalid, hprompt, hlooks, hleaves (Nat.le_refl 4)⟩

end LaunchDesk.Run
