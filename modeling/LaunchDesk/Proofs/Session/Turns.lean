import LaunchDesk.Proofs.Desk.Roll
import LaunchDesk.Proofs.Session.Kept

/-!
# Turns

A session takes turns with the world around it: besides its own moves, someone outside publishes
events or subscribes to them, a waiter that was woken looks at the intake, and whoever has the
session lets it go. Others who are subscribed only listen. `Becomes` is all that can become of a
session in a turn, and what holds of every turn is shown by its cases. `Booked` says which
subscriptions there are; every turn but the last keeps it, whatever the runs do.
-/

namespace LaunchDesk

namespace Session

variable {s : Session} {d e : Desk} {t : Trader} {k : Nat}
variable {seats : List Seat} {old new : Seat} {id : SubscriptionId}

inductive Turn
  | move (move : Move)
  | publish (event : Event)
  /-- Someone outside subscribes to events of a kind. -/
  | enlist (kind : EventKind)
  /-- A waiter looks at the intake, if it was woken. -/
  | look (waiter : Nat)
  | letGo

def take (s : Session) : Turn → Session
  | .move move => s.after move
  | .publish event => (s.publish event).1
  | .enlist kind => { s with desk := (s.desk.subscribe kind .recorder).2 }
  | .look waiter =>
    { s with desk := { s.desk with
        waiters := s.desk.waiters.modify waiter (Waiter.look s.desk.intake) } }
  | .letGo => s.letGo

/-! ## What becomes of a session -/

/-- A move that is an operation on the intake. -/
inductive Move.Operates : Move → Intake.Operation → Prop
  | start (resuming : Bool) : Operates (.start resuming) (.start resuming)
  | stop (force : Bool) : Operates (.stop force) (.stop force)
  | deliver (stale : Bool) (opportunity : Opportunity) :
    Operates (.deliver stale opportunity) (.deliver opportunity)

/-- The run for an admitted opportunity when it begins. -/
def newcomer (s : Session) (now : Moment) (k : Nat) (opportunity : Opportunity) : Trader :=
  { machine := k
    plan := s.plan k opportunity
    subscription := s.desk.bus.next
    run := ((s.heralded k opportunity).begun k (s.plan k opportunity) now).1 }

def beginning (s : Session) (now : Moment) (k : Nat) (opportunity : Opportunity) : Desk × Trader :=
  ((s.heralded k opportunity).manned k (s.plan k opportunity).botId).proceed k
    (s.newcomer now k opportunity) ((s.heralded k opportunity).begun k (s.plan k opportunity) now)

/-- What can become of a session in a turn. -/
inductive Becomes (s : Session) : Turn → Session → Prop
  /-- Nothing, as there is no intake, nobody in the seat, or nothing owed. -/
  | idle {turn : Turn} : Becomes s turn s
  | operates {move : Move} {op : Intake.Operation} (hop : move.Operates op) :
    Becomes s (.move move) (s.settle (s.desk.updateIntake (s.desk.intake.perform op)))
  | prepares {move : Move} (change : Feed → Feed)
    (hchange : ∀ f, (change f).attached = f.attached) : Becomes s (.move move)
      { s with desk := { s.desk with intake := s.desk.intake.updateFeed change } }
  | begins {now : Moment} {k : Nat} {opportunity : Opportunity}
    (hk : s.seats[k]? = some (.waiting opportunity))
    (hstart : (s.heralded k opportunity).start? k k (s.plan k opportunity) now =
      some (s.beginning now k opportunity)) :
    Becomes s (.move (.begin now k))
      (s.proceed k (s.beginning now k opportunity).1 (s.beginning now k opportunity).2)
  | refuses {now : Moment} {k : Nat} {opportunity : Opportunity} {ending : Intake.Ending}
    (hk : s.seats[k]? = some (.waiting opportunity)) : Becomes s (.move (.begin now k))
      ((s.settle ((s.heralded k opportunity).note (.ended k))).setSeat k (.leaving ending))
  | replies {now : Moment} {k : Nat} {reply : Reply} {t : Trader}
    (hk : s.seats[k]? = some (.working t)) : Becomes s (.move (.reply now k reply))
      (s.proceed k (s.desk.resume k t now reply).1 (s.desk.resume k t now reply).2)
  | vacates {k : Nat} {ending : Intake.Ending} (hk : s.seats[k]? = some (.leaving ending)) :
    Becomes s (.move (.vacate k)) ((s.settle (s.desk.finish k ending)).setSeat k .gone)
  | pays {i : Nat} {owed : List Decimal} {wallet : SimulatedWallet} {d : Desk}
    (hdesk : d = s.desk ∨ ∃ line, d = s.desk.log line) :
    Becomes s (.move (.pay i)) { s with owed := owed, wallet := wallet, desk := d }
  | waits (goal : Intake.Goal) : Becomes s (.move (.wait goal)) (s.wait goal)
  | shutsDown : Becomes s (.move .beginShutdown)
      ((s.settle (s.desk.stopAll .shutdown none)).wait .idle)
  | hasShutDown (line : Log.Line) :
    Becomes s (.move .endShutdown) { s with desk := s.desk.log line }
  | publishes (event : Event) : Becomes s (.publish event) (s.settle (s.desk.publish event).1)
  | enlists (kind : EventKind) :
    Becomes s (.enlist kind) { s with desk := (s.desk.subscribe kind .recorder).2 }
  | looks (waiter : Nat) : Becomes s (.look waiter) { s with
      desk := { s.desk with waiters := s.desk.waiters.modify waiter (Waiter.look s.desk.intake) } }
  | letsGo : Becomes s .letGo s.letGo

theorem becomes_begin (s : Session) (now : Moment) (k : Nat) :
    s.Becomes (.move (.begin now k)) (s.begin now k) := by
  unfold Session.begin
  split
  · next opportunity hk =>
    simp only
    split
    · next d t hstart =>
      have hbeginning : (d, t) = s.beginning now k opportunity := Desk.start?_eq_some hstart
      have hbegins := Becomes.begins hk (hstart.trans (congrArg some hbeginning))
      rwa [← hbeginning] at hbegins
    · exact .refuses hk
  · exact .idle

theorem becomes_take (s : Session) (turn : Turn) : s.Becomes turn (s.take turn) := by
  cases turn with
  | publish event => exact .publishes event
  | enlist kind => exact .enlists kind
  | look waiter => exact .looks waiter
  | letGo => exact .letsGo
  | move move =>
    cases move with
    | start resuming => exact .operates (.start resuming)
    | stop force => exact .operates (.stop force)
    | deliver stale opportunity =>
      simp only [take, after, deliver]
      split
      · exact .operates (.deliver stale opportunity)
      · exact .idle
    | failNext text => exact .prepares _ fun _ => rfl
    | interruptNext interruption => exact .prepares _ fun _ => rfl
    | begin now k => exact becomes_begin s now k
    | reply now k reply =>
      simp only [take, after, Session.reply]
      split
      · next t hk => exact .replies hk
      · exact .idle
    | vacate k =>
      simp only [take, after, vacate]
      split
      · next ending hk => exact .vacates hk
      · exact .idle
    | pay i =>
      obtain ⟨owed, wallet, d, hdesk, hpay⟩ := pay_eq s i
      change s.Becomes _ (s.pay i)
      rw [hpay]
      exact .pays hdesk
    | wait goal => exact .waits goal
    | beginShutdown => exact .shutsDown
    | endShutdown => exact .hasShutDown _

/-! ## Going on with a desk -/

/-- What outlasts every event outlasts what follows from the end of a run. -/
theorem lasting_conclude {P : Desk → Prop} {ending : Intake.Ending} (h : Desk.Lasting P) (hd : P d)
    (hconclude : conclude d t = some (e, ending)) : P e := by
  unfold conclude at hconclude
  split at hconclude
  · cases hconclude
    exact h.log _ hd
  · cases hconclude
    split
    · unfold stopOthers
      split
      · exact h.stopAll _ _ hd
      · exact h.log _ hd
    · exact hd
  · cases hconclude
    exact hd
  · cases hconclude

theorem conclude_of_request {request : Request} (d : Desk)
    (h : t.run.request? t.plan = some request) : conclude d t = none := by
  unfold Run.request? at h
  unfold conclude
  cases hphase : t.run.phase with
  | ended result => simp [hphase] at h
  | crashed fault => simp [hphase] at h
  | _ => rfl

theorem conclude_of_no_request (d : Desk) (h : t.run.request? t.plan = none) :
    ∃ e ending, conclude d t = some (e, ending) := by
  unfold Run.request? at h
  unfold conclude
  cases hphase : t.run.phase with
  | ended result => cases result <;> exact ⟨_, _, rfl⟩
  | crashed fault => exact ⟨_, _, rfl⟩
  | _ => simp [hphase] at h

theorem proceed_cases {p : Run.Progress} {u : Trader} (s : Session) (k : Nat)
    (hu : (d.proceed k t p).2 = u) :
    (∃ request, u.run.request? u.plan = some request ∧ s.proceed k (d.proceed k t p).1 u =
      (s.settle ((d.carryOut p.2).1.note (.asked k request))).setSeat k (.working u)) ∨
    ∃ e ending, conclude ((d.carryOut p.2).1.leave u) u = some (e, ending) ∧
      s.proceed k (d.proceed k t p).1 u =
        (s.settle (e.note (.ended k))).setSeat k (.leaving ending) := by
  subst hu
  rcases Desk.proceed_cases d k t p with ⟨-, request, hrequest, hdesk⟩ | ⟨hover, hdesk⟩
  · refine .inl ⟨request, hrequest, ?_⟩
    rw [hdesk, Session.proceed, conclude_of_request _ hrequest]
  · -- The run has changed since it came to the desk, and its subscription has not.
    have hleave : (d.carryOut p.2).1.leave (d.proceed k t p).2 = (d.carryOut p.2).1.leave t := by
      rw [Desk.proceed_trader]
      rfl
    obtain ⟨e, ending, hconclude⟩ := conclude_of_no_request ((d.carryOut p.2).1.leave t)
      ((Run.isOver_iff _ _).mp hover)
    refine .inr ⟨e, ending, hleave ▸ hconclude, ?_⟩
    rw [hdesk, Session.proceed, hconclude]

/-! ## Subscriptions -/

def Seat.subscription? : Seat → Option SubscriptionId
  | .working t => some t.subscription
  | _ => none

/-- The subscriptions of the runs at work. -/
def subscriptions (seats : List Seat) : List SubscriptionId := seats.filterMap Seat.subscription?

theorem subscriptions_waiting (seats : List Seat) (opportunities : List Opportunity) :
    subscriptions (seats ++ opportunities.map .waiting) = subscriptions seats := by
  have hnone : subscriptions (opportunities.map .waiting) = [] := by
    simp [subscriptions, Seat.subscription?]
  rw [subscriptions, List.filterMap_append]
  exact (congrArg _ hnone).trans (List.append_nil _)

theorem subscriptions_set (hk : seats[k]? = some old)
    (hsame : new.subscription? = old.subscription?) :
    subscriptions (seats.set k new) = subscriptions seats := by
  obtain ⟨hlt, rfl⟩ := List.getElem?_eq_some_iff.mp hk
  have hmap : (seats.set k new).map Seat.subscription? = seats.map Seat.subscription? := by
    rw [List.map_set, hsame]
    refine List.ext_getElem (by simp) fun j hj hj' => ?_
    rw [List.getElem_set]
    split
    · next heq => simp [heq]
    · rfl
  have hfilter : ∀ seats : List Seat,
      subscriptions seats = (seats.map Seat.subscription?).filterMap id := by
    intro seats
    simp [subscriptions, List.filterMap_map]
  rw [hfilter, hfilter, hmap]

theorem mem_subscriptions_of_set (h : id ∈ subscriptions (seats.set k new)) :
    new.subscription? = some id ∨ id ∈ subscriptions seats := by
  obtain ⟨seat, hseat, hid⟩ := List.mem_filterMap.mp h
  rcases List.mem_or_eq_of_mem_set hseat with hold | rfl
  · exact .inr (List.mem_filterMap.mpr ⟨seat, hold, hid⟩)
  · exact .inl hid

theorem mem_subscriptions_set (h : id ∈ subscriptions seats) (hk : seats[k]? = some old)
    (hold : old.subscription? ≠ some id) : id ∈ subscriptions (seats.set k new) := by
  obtain ⟨seat, hseat, hid⟩ := List.mem_filterMap.mp h
  obtain ⟨j, hj⟩ := List.mem_iff_getElem?.mp hseat
  have hne : k ≠ j := by
    rintro rfl
    rw [hk] at hj
    cases hj
    exact hold hid
  refine List.mem_filterMap.mpr ⟨seat, List.mem_iff_getElem?.mpr ⟨j, ?_⟩, hid⟩
  rw [List.getElem?_set_ne hne, hj]

/-- The subscription of the wallet, if trading is simulated. -/
def walletEntries (simulate : Bool) : List (SubscriptionId × Subscriber) :=
  if simulate then [(4, .wallet)] else []

/-- The overseer and the wallet are subscribed, in this order, and every other subscription is that
of a run at work or of someone who listens. -/
structure Booked (simulate : Bool) (b : Bus Subscriber) (seats : List Seat) : Prop where
  trades : ∃ others, b.trades = (1, .overseer) :: walletEntries simulate ++ others ∧
    ∀ e ∈ others, e.2 = .recorder
  cycles : ∃ others, b.cycles = (2, .overseer) :: others ∧ ∀ e ∈ others, e.2 = .recorder
  stops : ∃ others, b.stops = (3, .overseer) :: others ∧
    ∀ e ∈ others, e.2 = .recorder ∨ e.1 ∈ subscriptions seats
  numbered : ∀ kind, ∀ e ∈ b.subscribed kind, e.1 < b.next
  working : ∀ id ∈ subscriptions seats, 3 < id ∧ id < b.next ∧
    Bus.holds id b.trades = false ∧ Bus.holds id b.cycles = false

namespace Booked

variable {simulate : Bool} {b : Bus Subscriber}

theorem of_subscriptions {seats' : List Seat} (h : Booked simulate b seats)
    (hsame : subscriptions seats' = subscriptions seats) : Booked simulate b seats' where
  trades := h.trades
  cycles := h.cycles
  stops := by rw [hsame]; exact h.stops
  numbered := h.numbered
  working := by rw [hsame]; exact h.working

theorem stops_lt (h : Booked simulate b seats) : 3 < b.next := by
  obtain ⟨others, hstops, -⟩ := h.stops
  exact h.numbered .stop (3, .overseer) (by rw [Bus.subscribed, hstops]; exact List.mem_cons_self)

theorem enlist (h : Booked simulate b seats) (kind : EventKind) :
    Booked simulate (b.subscribe kind .recorder).2 seats := by
  have hnumbered := Bus.numbered_subscribe h.numbered kind .recorder
  obtain ⟨trades, htrades, htold⟩ := h.trades
  obtain ⟨cycles, hcycles, hcounted⟩ := h.cycles
  obtain ⟨stops, hstops, hasked⟩ := h.stops
  cases kind with
  | trade =>
    refine ⟨⟨trades ++ [(b.next, .recorder)], ?_, ?_⟩, h.cycles, h.stops, hnumbered, ?_⟩
    · exact (congrArg (· ++ [_]) htrades).trans (List.append_assoc _ _ _)
    · simpa [or_imp, forall_and] using htold
    · intro id hid
      obtain ⟨hlow, hlt, htrade, hcycle⟩ := h.working id hid
      exact ⟨hlow, Nat.lt_succ_of_lt hlt, Bus.holds_snoc _ htrade hlt, hcycle⟩
  | cycle =>
    refine ⟨h.trades, ⟨cycles ++ [(b.next, .recorder)], ?_, ?_⟩, h.stops, hnumbered, ?_⟩
    · exact congrArg (· ++ [_]) hcycles
    · simpa [or_imp, forall_and] using hcounted
    · intro id hid
      obtain ⟨hlow, hlt, htrade, hcycle⟩ := h.working id hid
      exact ⟨hlow, Nat.lt_succ_of_lt hlt, htrade, Bus.holds_snoc _ hcycle hlt⟩
  | stop =>
    refine ⟨h.trades, h.cycles, ⟨stops ++ [(b.next, .recorder)], ?_, ?_⟩, hnumbered, ?_⟩
    · exact congrArg (· ++ [_]) hstops
    · intro e he
      rcases List.mem_append.mp he with he | he
      · exact hasked e he
      · exact .inl (congrArg Prod.snd (List.mem_singleton.mp he))
    · intro id hid
      obtain ⟨hlow, hlt, hstop⟩ := h.working id hid
      exact ⟨hlow, Nat.lt_succ_of_lt hlt, hstop⟩

theorem begin {machine : Nat} {bot : BotId} (h : Booked simulate b seats)
    (hk : seats[k]? = some old) (hold : old.subscription? = none)
    (ht : t.subscription = b.next) :
    Booked simulate (b.subscribe .stop (.run machine bot)).2 (seats.set k (.working t)) := by
  have hmem : b.next ∈ subscriptions (seats.set k (.working t)) := by
    obtain ⟨hlt, -⟩ := List.getElem?_eq_some_iff.mp hk
    exact List.mem_filterMap.mpr ⟨_, List.mem_set hlt _, congrArg some ht⟩
  obtain ⟨stops, hstops, hasked⟩ := h.stops
  refine ⟨h.trades, h.cycles, ⟨stops ++ [(b.next, .run machine bot)], ?_, ?_⟩,
    Bus.numbered_subscribe h.numbered .stop _, ?_⟩
  · exact congrArg (· ++ [_]) hstops
  · intro e he
    rcases List.mem_append.mp he with he | he
    · refine (hasked e he).imp_right fun hid => mem_subscriptions_set hid hk ?_
      simp [hold]
    · obtain rfl := List.mem_singleton.mp he
      exact .inr hmem
  · intro id hid
    rcases mem_subscriptions_of_set hid with hnew | hid
    · obtain rfl : b.next = id := ht.symm.trans (Option.some.inj hnew)
      exact ⟨h.stops_lt, Nat.lt_succ_self _, Bus.holds_of_lt (h.numbered .trade),
        Bus.holds_of_lt (h.numbered .cycle)⟩
    · obtain ⟨hlow, hlt, hstop⟩ := h.working id hid
      exact ⟨hlow, Nat.lt_succ_of_lt hlt, hstop⟩

theorem leave (h : Booked simulate b seats) (hk : seats[k]? = some (.working t))
    (hnew : new.subscription? = none) :
    Booked simulate (b.unsubscribe t.subscription).2 (seats.set k new) := by
  have hmem : t.subscription ∈ subscriptions seats :=
    List.mem_filterMap.mpr ⟨_, List.mem_of_getElem? hk, rfl⟩
  obtain ⟨hlow, -, htrade, hcycle⟩ := h.working _ hmem
  have hbus : (b.unsubscribe t.subscription).2 =
      { b with stops := Bus.without t.subscription b.stops } :=
    Bus.unsubscribe_stops htrade hcycle
  obtain ⟨stops, hstops, hasked⟩ := h.stops
  rw [hbus]
  refine ⟨h.trades, h.cycles, ⟨Bus.without t.subscription stops, ?_, ?_⟩, ?_, ?_⟩
  · have hne : (3 != t.subscription) = true := by
      simpa using Nat.ne_of_lt hlow
    simp only [hstops]
    exact List.filter_cons_of_pos hne
  · intro e he
    obtain ⟨he, hne⟩ := List.mem_filter.mp he
    refine (hasked e he).imp_right fun hid => mem_subscriptions_set hid hk ?_
    intro heq
    exact absurd (Option.some.inj heq).symm (by simpa using hne)
  · intro kind e he
    cases kind with
    | stop => exact h.numbered .stop e (List.mem_of_mem_filter he)
    | trade => exact h.numbered .trade e he
    | cycle => exact h.numbered .cycle e he
  · intro id hid
    rcases mem_subscriptions_of_set hid with hsome | hid
    · rw [hnew] at hsome
      cases hsome
    · exact h.working id hid

end Booked

/-! ## Every turn -/

/-- `P` says how the subscriptions and the seats of a session belong together, and it is kept by
everything that becomes of them in a turn. -/
structure Keeps (P : Setup → Bus Subscriber → List Seat → Prop) : Prop where
  grow : ∀ {u b seats} {opportunities : List Opportunity}, P u b seats →
    P u b (seats ++ opportunities.map .waiting)
  enlist : ∀ {u b seats} (kind), P u b seats → P u (b.subscribe kind .recorder).2 seats
  begin : ∀ {u b seats k opportunity} {t : Trader}, P u b seats →
    seats[k]? = some (.waiting opportunity) → t.subscription = b.next → t.machine = k →
    P u (b.subscribe .stop (.run k t.plan.botId)).2 (seats.set k (.working t))
  refuse : ∀ {u b seats k opportunity ending}, P u b seats →
    seats[k]? = some (.waiting opportunity) → P u b (seats.set k (.leaving ending))
  goOn : ∀ {u b seats k} {t : Trader} (run), P u b seats → seats[k]? = some (.working t) →
    P u b (seats.set k (.working { t with run := run }))
  leave : ∀ {u b seats k ending} {t : Trader}, P u b seats → seats[k]? = some (.working t) →
    P u (b.unsubscribe t.subscription).2 (seats.set k (.leaving ending))
  vacate : ∀ {u b seats k ending}, P u b seats → seats[k]? = some (.leaving ending) →
    P u b (seats.set k .gone)

/-- `P` holds of a session. -/
def Has (P : Setup → Bus Subscriber → List Seat → Prop) (s : Session) : Prop :=
  P s.setup s.desk.bus s.seats

namespace Keeps

variable {P : Setup → Bus Subscriber → List Seat → Prop}

theorem settle (hP : Keeps P) (hnotes : s.desk.notes <+: e.notes)
    (h : P s.setup e.bus s.seats) : (s.settle e).Has P := by
  obtain ⟨more, hmore⟩ := hnotes
  rw [settle_eq s hmore.symm]
  exact hP.grow h

theorem upholds (hP : Keeps P) (h : s.Has P) (hu : Desk.Upholds s.desk e) :
    (s.settle e).Has P := by
  refine hP.settle hu.notes ?_
  rw [hu.bus]
  exact h

theorem settle_set (hP : Keeps P) (hnotes : s.desk.notes <+: e.notes)
    (hk : s.seats[k]? = some old) (h : P s.setup e.bus (s.seats.set k new)) :
    ((s.settle e).setSeat k new).Has P := by
  obtain ⟨more, hmore⟩ := hnotes
  rw [settle_eq s hmore.symm]
  unfold Has setSeat
  simp only
  rw [set_append hk]
  exact hP.grow h

theorem proceed (hP : Keeps P) {p : Run.Progress} (hk : s.seats[k]? = some old)
    (hnotes : s.desk.notes <+: d.notes) (h : P s.setup d.bus (s.seats.set k (.working t))) :
    (s.proceed k (d.proceed k t p).1 (d.proceed k t p).2).Has P := by
  have hcarried := (Desk.lasting_upholds d).carryOut p.2 (.refl d)
  have htrader := Desk.proceed_trader d k t p
  obtain ⟨hlt, -⟩ := List.getElem?_eq_some_iff.mp hk
  have hset : (s.seats.set k (.working t))[k]? = some (.working t) := List.getElem?_set_self hlt
  rcases proceed_cases s k htrader with ⟨request, -, hasks⟩ | ⟨e, ending, hconclude, hleaves⟩
  · rw [htrader, hasks]
    refine hP.settle_set ((hnotes.trans hcarried.notes).trans (List.prefix_append _ _)) hk ?_
    change P _ (d.carryOut p.2).1.bus _
    rw [hcarried.bus, ← List.set_set (a := .working t)]
    exact hP.goOn _ h hset
  · have hconcluded := lasting_conclude (Desk.lasting_upholds _).toLasting (.refl _) hconclude
    rw [htrader, hleaves]
    refine hP.settle_set ?_ hk ?_
    · exact ((hnotes.trans hcarried.notes).trans hconcluded.notes).trans (List.prefix_append _ _)
    · change P _ e.bus _
      rw [hconcluded.bus, ← List.set_set (a := .working t)]
      change P _ ((d.carryOut p.2).1.bus.unsubscribe t.subscription).2 _
      rw [hcarried.bus]
      exact hP.leave h hset

/-- Every turn keeps `P`, unless the session is let go. -/
theorem take (hP : Keeps P) (h : s.Has P) {turn : Turn} (hturn : turn ≠ .letGo) :
    (s.take turn).Has P := by
  have hrefl := Desk.Upholds.refl s.desk
  have hbecomes := becomes_take s turn
  generalize s.take turn = v at hbecomes ⊢
  cases hbecomes with
  | idle => exact h
  | @operates move op hop => exact hP.upholds h (hrefl.updateIntake op)
  | prepares change hchange => exact h
  | @begins now k opportunity hk hstart =>
    exact hP.proceed hk (List.prefix_append _ _)
      (hP.begin (t := s.newcomer now k opportunity) h hk rfl rfl)
  | refuses hk =>
    exact hP.settle_set ((List.prefix_append _ _).trans (List.prefix_append _ _)) hk
      (hP.refuse h hk)
  | replies hk => exact hP.proceed hk List.prefix_rfl (hP.goOn _ h hk)
  | @vacates k ending hk =>
    have hfinished := hrefl.updateIntake (.finish k ending)
    have hbus : (s.desk.finish k ending).bus = s.desk.bus := hfinished.bus
    refine hP.settle_set hfinished.notes hk ?_
    rw [hbus]
    exact hP.vacate h hk
  | pays hdesk =>
    obtain rfl | ⟨line, rfl⟩ := hdesk
    all_goals exact h
  | waits goal => exact h
  | shutsDown => exact hP.upholds h ((Desk.lasting_upholds _).stopAll .shutdown none hrefl)
  | hasShutDown line => exact h
  | publishes event => exact hP.upholds h ((Desk.lasting_upholds _).publish event hrefl)
  | enlists kind => exact hP.enlist kind h
  | looks waiter => exact h
  | letsGo => exact absurd rfl hturn

end Keeps

/-- The subscriptions of a session are in order. -/
def IsBooked (s : Session) : Prop := Booked s.setup.settings.trading.simulate s.desk.bus s.seats

theorem keeps_booked : Keeps fun setup => Booked setup.settings.trading.simulate where
  grow h := h.of_subscriptions (subscriptions_waiting _ _)
  enlist kind h := h.enlist kind
  begin h hk hid _ := h.begin hk rfl hid
  refuse h hk := h.of_subscriptions (subscriptions_set hk rfl)
  goOn _ h hk := h.of_subscriptions (subscriptions_set hk rfl)
  leave h hk := h.leave hk rfl
  vacate h hk := h.of_subscriptions (subscriptions_set hk rfl)

theorem IsBooked.take (h : s.IsBooked) {turn : Turn} (hturn : turn ≠ .letGo) :
    (s.take turn).IsBooked := keeps_booked.take h hturn

theorem create_eq (setup : Setup) (wallet : SimulatedWallet) :
    let simulate := setup.settings.trading.simulate
    create setup wallet =
      { setup := setup
        desk :=
          { bus :=
              { next := if simulate then 5 else 4
                trades := (1, .overseer) :: walletEntries simulate
                cycles := [(2, .overseer)]
                stops := [(3, .overseer)] }
            intake := { maxConcurrent := setup.ceiling }
            overseer := some { limits := setup.settings.limits, balance := wallet.balance }
            notes := [.log (readyLine setup.settings wallet.balance)] }
        wallet := wallet
        overseerIds := [1, 2, 3]
        walletId := if simulate then some 4 else none } := by
  unfold create
  cases hsimulate : setup.settings.trading.simulate with
  | true =>
    simp only [hsimulate, if_true]
    rfl
  | false =>
    simp only [hsimulate]
    rfl

theorem isBooked_create (setup : Setup) (wallet : SimulatedWallet) :
    (create setup wallet).IsBooked := by
  rw [create_eq]
  refine ⟨⟨[], (List.append_nil _).symm, by simp⟩, ⟨[], rfl, by simp⟩, ⟨[], rfl, by simp⟩, ?_,
    by simp [subscriptions]⟩
  have hlists : ∀ simulate : Bool, (∀ e ∈ (1, Subscriber.overseer) :: walletEntries simulate,
      e.1 < if simulate then 5 else 4) ∧ 3 < if simulate then 5 else 4 := by decide
  obtain ⟨htrades, hlow⟩ := hlists setup.settings.trading.simulate
  intro kind e he
  cases kind with
  | trade => exact htrades e he
  | cycle =>
    obtain rfl := List.mem_singleton.mp he
    exact Nat.lt_trans (by decide : 2 < 3) hlow
  | stop =>
    obtain rfl := List.mem_singleton.mp he
    exact hlow

end Session

end LaunchDesk
