import LaunchDesk.Proofs.Desk.Roll
import LaunchDesk.Proofs.Run.Effects
import LaunchDesk.Proofs.Sequences

/-!
# Moves on a floor

On a floor any number of runs go on at one desk, on any machines, each with a bot of its own. The
floor goes on in moves, in any order: a run is started, it gets the reply that it waits for or is
broken off, a machine is cancelled, and events are published from outside. `Becomes` is all that can
become of a floor in a move. A run at work is subscribed to stop requests, and nobody else is but
the recorder and the overseer.
-/

namespace LaunchDesk

/-- A run on a floor, with all that was seen of it. -/
structure Player where
  trader : Trader
  seen : List Run.Effect
  /-- It was broken off before it was over. -/
  aborted : Bool := false

namespace Player

def bot (p : Player) : BotId := p.trader.plan.botId

def machine (p : Player) : Nat := p.trader.machine

def isAtWork (p : Player) : Bool := !p.aborted && !p.trader.run.isOver

/-- The entry of a run among those who are subscribed to stop requests. -/
def entry (p : Player) : SubscriptionId × Subscriber :=
  (p.trader.subscription, .run p.machine p.bot)

end Player

structure Floor where
  desk : Desk
  /-- The runs in the order in which they were started. -/
  players : List Player := []

namespace Floor

/-- A floor with recorders on its bus, and with an overseer if there are limits. -/
def create (max : Option Nat) (oversight : Option (Limits × Decimal)) : Floor :=
  let desk := Desk.addRecorders { intake := { maxConcurrent := max } }
  { desk := oversight.elim desk fun (limits, balance) => (desk.appoint limits balance).2 }

inductive Move
  | start (machine : Nat) (plan : Plan) (now : Moment)
  | reply (run : Nat) (now : Moment) (reply : Reply)
  | abort (run : Nat)
  | cancel (machine : Nat)
  | publish (event : Event)

/-- A run is started, unless its machine is taken. -/
def start (f : Floor) (machine : Nat) (plan : Plan) (now : Moment) : Floor :=
  match f.desk.start? f.players.length machine plan now with
  | none => f
  | some (desk, trader) =>
    let begun := Run.start plan (f.desk.machines machine).cancelled now
    { desk := desk, players := f.players ++ [⟨trader, Run.effects plan begun, false⟩] }

/-- A run at work gets a reply that it waits for; any other reply does not reach it. -/
def reply (f : Floor) (k : Nat) (now : Moment) (reply : Reply) : Floor :=
  match f.players[k]? with
  | none => f
  | some p =>
    if p.isAtWork && (p.trader.run.request? p.trader.plan).any (·.awaits reply) then
      let next := p.trader.run.resume p.trader.plan (f.desk.machines p.machine).cancelled now reply
      let (desk, trader) := f.desk.resume k p.trader now reply
      { desk := desk
        players := f.players.set k { p with
          trader := trader
          seen := p.seen ++ Run.Effect.ofReply reply ++
            Run.effects p.trader.plan (trader.run, next.2) } }
    else f

def abort (f : Floor) (k : Nat) : Floor :=
  match f.players[k]? with
  | none => f
  | some p =>
    if p.isAtWork then
      { desk := f.desk.leave p.trader, players := f.players.set k { p with aborted := true } }
    else f

def after (f : Floor) : Move → Floor
  | .start machine plan now => f.start machine plan now
  | .reply k now reply => f.reply k now reply
  | .abort k => f.abort k
  | .cancel machine => { f with desk := f.desk.cancel machine }
  | .publish event => { f with desk := (f.desk.publish event).1 }

def play (max : Option Nat) (oversight : Option (Limits × Decimal)) (moves : List Move) : Floor :=
  moves.foldl after (create max oversight)

/-- Run number `k` is at work. -/
def Works (f : Floor) (k : Nat) (p : Player) : Prop :=
  f.players[k]? = some p ∧ p.isAtWork = true

variable {f : Floor} {d : Desk} {k : Nat} {p q : Player}

/-! ## Who is subscribed -/

/-- The runs at work. -/
def roll (f : Floor) (id : SubscriptionId) (m : Nat) (bot : BotId) : Prop :=
  ∃ k p, f.Works k p ∧ p.entry = (id, .run m bot)

/-- The runs at work are on the roll, each on a number of its own, and one recorder listens. -/
structure Registered (f : Floor) : Prop where
  recorders : Desk.recorders f.desk.bus.stops = 1
  enrols : f.desk.bus.Enrols f.roll
  distinct : ∀ j k p q, f.Works j p → f.Works k q →
    p.trader.subscription = q.trader.subscription → j = k

theorem Registered.entered (hp : f.Works k p) :
    f.roll p.trader.subscription p.machine p.bot := ⟨k, p, hp, rfl⟩

/-- The bus of a floor on which nothing has been started yet. -/
def firstBus (overseen : Bool) : Bus Subscriber :=
  let others : SubscriptionId → List (SubscriptionId × Subscriber) := fun id =>
    if overseen then [(id, .overseer)] else []
  { next := if overseen then 7 else 4
    trades := (1, .recorder) :: others 4
    cycles := (2, .recorder) :: others 5
    stops := (3, .recorder) :: others 6 }

theorem bus_create (max : Option Nat) (oversight : Option (Limits × Decimal)) :
    (create max oversight).desk.bus = firstBus oversight.isSome ∧
      (create max oversight).players = [] := by
  cases oversight <;> exact ⟨rfl, rfl⟩

theorem ordered_firstBus (overseen : Bool) : (firstBus overseen).Ordered := by
  -- One subscriber enters the list of each kind, and then another one may.
  have hround : ∀ (b : Bus Subscriber) (s : Subscriber), b.Ordered →
      ((((b.subscribe .trade s).2.subscribe .cycle s).2).subscribe .stop s).2.Ordered :=
    fun b s h => ((h.subscribe .trade s).subscribe .cycle s).subscribe .stop s
  have hrecorded : (firstBus false).Ordered := hround {} .recorder Bus.ordered_empty
  cases overseen with
  | false => exact hrecorded
  | true => exact hround (firstBus false) .overseer hrecorded

theorem registered_create (max : Option Nat) (oversight : Option (Limits × Decimal)) :
    (create max oversight).Registered := by
  obtain ⟨hbus, hplayers⟩ := bus_create max oversight
  have hnone : ∀ k p, ¬(create max oversight).Works k p := by
    rintro k p ⟨hk, -⟩
    rw [hplayers] at hk
    cases hk
  refine ⟨?_, ⟨?_, fun id m bot => iff_of_false ?_ ?_⟩, fun j k p q h => absurd h (hnone j p)⟩
  · rw [hbus]
    cases oversight.isSome <;> rfl
  · rw [hbus]
    exact ordered_firstBus _
  · rw [hbus, firstBus]
    cases oversight.isSome <;> simp
  · rintro ⟨k, p, hp, -⟩
    exact hnone k p hp

theorem Registered.of_works {g : Floor} (h : f.Registered) (hbus : g.desk.bus = f.desk.bus)
    (hback : ∀ k q, g.Works k q → ∃ p, f.Works k p ∧ p.entry = q.entry)
    (hon : ∀ k p, f.Works k p → ∃ q, g.Works k q ∧ q.entry = p.entry) : g.Registered where
  recorders := by rw [hbus]; exact h.recorders
  enrols := by
    rw [hbus]
    refine h.enrols.congr fun id m bot => ⟨?_, ?_⟩
    · rintro ⟨k, p, hp, hentry⟩
      obtain ⟨q, hq, hsame⟩ := hon k p hp
      exact ⟨k, q, hq, hsame.trans hentry⟩
    · rintro ⟨k, q, hq, hentry⟩
      obtain ⟨p, hp, hsame⟩ := hback k q hq
      exact ⟨k, p, hp, hsame.trans hentry⟩
  distinct j k p q hp hq heq := by
    obtain ⟨p', hp', hsame⟩ := hback j p hp
    obtain ⟨q', hq', hsame'⟩ := hback k q hq
    refine h.distinct j k p' q' hp' hq' ?_
    exact (congrArg Prod.fst hsame).trans (heq.trans (congrArg Prod.fst hsame').symm)

theorem Registered.of_bus (h : f.Registered) (hbus : d.bus = f.desk.bus) :
    Registered { f with desk := d } :=
  h.of_works hbus (fun _ q hq => ⟨q, hq, rfl⟩) fun _ p hp => ⟨p, hp, rfl⟩

/-! ## Changes of who is at work -/

theorem works_set (hk : f.players[k]? = some p) {j : Nat} {p' : Player} :
    Works ⟨d, f.players.set k q⟩ j p' ↔
      (j = k ∧ p' = q ∧ q.isAtWork = true) ∨ j ≠ k ∧ f.Works j p' := by
  obtain ⟨hlt, -⟩ := List.getElem?_eq_some_iff.mp hk
  simp only [Works, getElem?_set_iff hlt, or_and_right, and_assoc]
  refine or_congr_left (and_congr_right fun _ => and_congr_right fun hq => ?_)
  rw [hq]

theorem works_concat {j : Nat} {p' : Player} :
    Works ⟨d, f.players ++ [q]⟩ j p' ↔
      f.Works j p' ∨ j = f.players.length ∧ p' = q ∧ q.isAtWork = true := by
  simp only [Works, List.getElem?_append]
  by_cases hj : j < f.players.length
  · rw [if_pos hj]
    exact (or_iff_left fun heq => absurd heq.1 (Nat.ne_of_lt hj)).symm
  · rw [if_neg hj, List.getElem?_eq_none (Nat.le_of_not_lt hj)]
    by_cases hlast : j = f.players.length
    · subst hlast
      simp only [Nat.sub_self, List.getElem?_cons_zero, Option.some.injEq, true_and]
      constructor
      · rintro ⟨rfl, hq⟩
        exact .inr ⟨rfl, hq⟩
      · rintro (⟨⟨⟩, -⟩ | ⟨rfl, hq⟩)
        exact ⟨rfl, hq⟩
    · have hpast : [q][j - f.players.length]? = none :=
        List.getElem?_eq_none (by simp only [List.length_singleton]; omega)
      simp [hpast, hlast]

theorem Registered.goes_on (h : f.Registered) (hp : f.Works k p) (hbus : d.bus = f.desk.bus)
    (hentry : q.entry = p.entry) (hq : q.isAtWork = true) :
    Registered { desk := d, players := f.players.set k q } := by
  refine h.of_works hbus ?_ ?_
  · intro j p' hp'
    rcases (works_set hp.1).mp hp' with ⟨rfl, rfl, -⟩ | ⟨-, hold⟩
    · exact ⟨p, hp, hentry.symm⟩
    · exact ⟨p', hold, rfl⟩
  · intro j p' hp'
    by_cases hjk : j = k
    · subst hjk
      obtain rfl := Option.some.inj (hp.1.symm.trans hp'.1)
      exact ⟨q, (works_set hp.1).mpr (.inl ⟨rfl, rfl, hq⟩), hentry⟩
    · exact ⟨p', (works_set hp.1).mpr (.inr ⟨hjk, hp'⟩), rfl⟩

theorem Registered.leaves (h : f.Registered) (hp : f.Works k p)
    (hbus : d.bus = (f.desk.bus.unsubscribe p.trader.subscription).2)
    (hq : q.isAtWork = false) :
    Registered { desk := d, players := f.players.set k q } := by
  obtain ⟨htrade, hcycle⟩ := h.enrols.stop_only (Registered.entered hp)
  -- Who is still at work was so before, and is somebody else.
  have hothers : ∀ j p', Works ⟨d, f.players.set k q⟩ j p' ↔ j ≠ k ∧ f.Works j p' := by
    intro j p'
    rw [works_set hp.1]
    simp [hq]
  refine ⟨?_, ?_, fun i j p' q' hp' hq' => ?_⟩
  · rw [hbus, Bus.unsubscribe_stops htrade hcycle, ← h.recorders]
    refine Desk.recorders_without fun e he hrecorder heq => ?_
    rw [h.enrols.entry_eq (Registered.entered hp) he heq] at hrecorder
    cases hrecorder
  · rw [hbus]
    refine (h.enrols.strike (Registered.entered hp)).congr fun id m bot => ⟨?_, ?_⟩
    · rintro ⟨⟨j, p', hp', hentry⟩, hne⟩
      refine ⟨j, p', (hothers j p').mpr ⟨?_, hp'⟩, hentry⟩
      rintro rfl
      obtain rfl := Option.some.inj (hp.1.symm.trans hp'.1)
      exact hne (congrArg Prod.fst hentry).symm
    · rintro ⟨j, p', hp', hentry⟩
      obtain ⟨hjk, hj⟩ := (hothers j p').mp hp'
      refine ⟨⟨j, p', hj, hentry⟩, fun heq => hjk (h.distinct j k p' p hj hp ?_)⟩
      exact (congrArg Prod.fst hentry).trans heq
  · exact h.distinct i j p' q' ((hothers i p').mp hp').2 ((hothers j q').mp hq').2

theorem Registered.begins (h : f.Registered)
    (hbus : d.bus = (f.desk.bus.subscribe .stop (.run q.machine q.bot)).2)
    (hid : q.trader.subscription = f.desk.bus.next) (hq : q.isAtWork = true) :
    Registered { desk := d, players := f.players ++ [q] } := by
  have hworks : ∀ j p', Works ⟨d, f.players ++ [q]⟩ j p' ↔
      f.Works j p' ∨ j = f.players.length ∧ p' = q := by
    intro j p'
    rw [works_concat, and_iff_left hq]
  have hentry : q.entry = (f.desk.bus.next, .run q.machine q.bot) := Prod.ext hid rfl
  have hne : ∀ {j p'}, f.Works j p' → p'.trader.subscription ≠ f.desk.bus.next :=
    fun hp' => Nat.ne_of_lt (h.enrols.lt_next (Registered.entered hp'))
  refine ⟨?_, ?_, fun i j p' q' hp' hq' heq => ?_⟩
  · rw [hbus, ← h.recorders]
    exact List.countP_append
  · rw [hbus]
    refine (h.enrols.enter q.machine q.bot).congr fun id m bot => ⟨?_, ?_⟩
    · rintro (⟨j, p', hp', hsame⟩ | ⟨rfl, rfl, rfl⟩)
      · exact ⟨j, p', (hworks j p').mpr (.inl hp'), hsame⟩
      · exact ⟨_, q, (hworks _ q).mpr (.inr ⟨rfl, rfl⟩), hentry⟩
    · rintro ⟨j, p', hp', hsame⟩
      rcases (hworks j p').mp hp' with hp' | ⟨-, rfl⟩
      · exact .inl ⟨j, p', hp', hsame⟩
      · cases hentry.symm.trans hsame
        exact .inr ⟨rfl, rfl, rfl⟩
  · rcases (hworks i p').mp hp' with hp | ⟨rfl, rfl⟩
    · rcases (hworks j q').mp hq' with hq | ⟨-, rfl⟩
      · exact h.distinct i j p' q' hp hq heq
      · exact absurd (heq.trans hid) (hne hp)
    · rcases (hworks j q').mp hq' with hq | ⟨rfl, -⟩
      · exact absurd (heq.symm.trans hid) (hne hq)
      · rfl

/-! ## Every move -/

/-- A run at work after a reply. -/
def answered (f : Floor) (k : Nat) (p : Player) (now : Moment) (reply : Reply) : Player :=
  let next := p.trader.run.resume p.trader.plan (f.desk.machines p.machine).cancelled now reply
  let trader := (f.desk.resume k p.trader now reply).2
  { p with
    trader := trader
    seen := p.seen ++ Run.Effect.ofReply reply ++
      Run.effects p.trader.plan (trader.run, next.2) }

/-- What can become of a floor in a move. -/
inductive Becomes (f : Floor) : Move → Floor → Prop
  /-- Nothing, as the machine is taken, or no run at work waits for this. -/
  | idle {move : Move} : Becomes f move f
  | starts {machine : Nat} {plan : Plan} {now : Moment} {d : Desk} {t : Trader}
    (hstart : f.desk.start? f.players.length machine plan now = some (d, t)) :
    Becomes f (.start machine plan now) ⟨d, f.players ++ [⟨t,
      Run.effects plan (Run.start plan (f.desk.machines machine).cancelled now), false⟩]⟩
  | replies {k : Nat} {p : Player} {now : Moment} {reply : Reply} (hp : f.Works k p)
    (hawaited : (p.trader.run.request? p.trader.plan).any (·.awaits reply) = true) :
    Becomes f (.reply k now reply) ⟨(f.desk.resume k p.trader now reply).1,
      f.players.set k (f.answered k p now reply)⟩
  | aborts {k : Nat} {p : Player} (hp : f.Works k p) : Becomes f (.abort k)
      ⟨f.desk.leave p.trader, f.players.set k { p with aborted := true }⟩
  | cancels (machine : Nat) :
    Becomes f (.cancel machine) { f with desk := f.desk.cancel machine }
  | publishes (event : Event) :
    Becomes f (.publish event) { f with desk := (f.desk.publish event).1 }

theorem becomes_after (f : Floor) (move : Move) : f.Becomes move (f.after move) := by
  cases move with
  | start machine plan now =>
    simp only [after, start]
    split
    · exact .idle
    · next d t hstart => exact .starts hstart
  | reply k now reply =>
    simp only [after, Floor.reply]
    split
    · exact .idle
    · next p hk =>
      split
      · next hawaited =>
        obtain ⟨hwork, hawaited⟩ := Bool.and_eq_true_iff.mp hawaited
        exact .replies ⟨hk, hwork⟩ hawaited
      · exact .idle
  | abort k =>
    simp only [after, abort]
    split
    · exact .idle
    · next p hk =>
      split
      · next hwork => exact .aborts ⟨hk, hwork⟩
      · exact .idle
  | cancel machine => exact .cancels machine
  | publish event => exact .publishes event

theorem Registered.reply (h : f.Registered) (hp : f.Works k p) (now : Moment) (reply : Reply) :
    Registered ⟨(f.desk.resume k p.trader now reply).1,
      f.players.set k (f.answered k p now reply)⟩ := by
  have haborted : p.aborted = false := by
    simpa [Player.isAtWork] using (Bool.and_eq_true_iff.mp hp.2).1
  simp only [answered, Desk.resume]
  generalize p.trader.run.resume p.trader.plan _ now reply = next
  have hcarried := Desk.bus_carryOut f.desk next.2
  have htrader := Desk.proceed_trader f.desk k p.trader next
  rcases Desk.proceed_cases f.desk k p.trader next with
    ⟨hover, request, -, hdesk⟩ | ⟨hover, hdesk⟩
  · refine h.goes_on hp ((congrArg Desk.bus hdesk).trans hcarried) ?_ ?_
    · rw [htrader]
      rfl
    · simp [Player.isAtWork, haborted, hover]
  · refine h.leaves hp ?_ ?_
    · rw [hdesk, ← hcarried]
      rfl
    · simp [Player.isAtWork, hover]

theorem Registered.after (h : f.Registered) (move : Move) : (f.after move).Registered := by
  have hbecomes := becomes_after f move
  generalize f.after move = g at hbecomes ⊢
  cases hbecomes with
  | idle => exact h
  | starts hstart =>
    obtain ⟨rfl, hover, request, rfl⟩ := Desk.start?_spec hstart
    refine h.begins (Desk.bus_carryOut _ _) rfl ?_
    rw [Player.isAtWork, hover]
    rfl
  | replies hp hawaited => exact h.reply hp _ _
  | aborts hp => exact h.leaves hp rfl (by simp [Player.isAtWork])
  | cancels machine =>
    refine h.of_bus ?_
    unfold Desk.cancel
    split <;> rfl
  | publishes event =>
    exact h.of_bus ((Desk.lasting_upholds f.desk).publish event (.refl f.desk)).bus

theorem play_snoc (max : Option Nat) (oversight : Option (Limits × Decimal)) (moves : List Move)
    (move : Move) : play max oversight (moves ++ [move]) = (play max oversight moves).after move :=
  List.foldl_append

theorem registered_play (max : Option Nat) (oversight : Option (Limits × Decimal))
    (moves : List Move) : (play max oversight moves).Registered := by
  induction moves using List.reverseRecOn with
  | nil => exact registered_create max oversight
  | append_singleton moves move ih =>
    rw [play_snoc]
    exact ih.after move

end Floor

end LaunchDesk
