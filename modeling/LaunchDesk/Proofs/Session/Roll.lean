import LaunchDesk.Proofs.Sequences
import LaunchDesk.Proofs.Session.Turns

/-!
# Runs in their seats

The run in a seat works on the machine with the number of the seat, and it is on the roll of the
desk from its beginning until it leaves. Before that, while its seat is waiting, it is not.
-/

namespace LaunchDesk.Session

variable {s : Session} {d e : Desk} {k j : Nat} {t : Trader} {seats : List Seat}
variable {old new seat : Seat} {b : Bus Subscriber}

/-! ## The roll of a session -/

/-- The runs at work, each in the seat with the number of its machine. -/
def roll (seats : List Seat) (id : SubscriptionId) (m : Nat) (bot : BotId) : Prop :=
  ∃ t, seats[m]? = some (.working t) ∧ t.subscription = id ∧ t.plan.botId = bot

structure Enrolled (b : Bus Subscriber) (seats : List Seat) : Prop where
  enrols : b.Enrols (roll seats)
  machine : ∀ (k : Nat) (t : Trader), seats[k]? = some (.working t) → t.machine = k

namespace Enrolled

theorem of_working {seats' : List Seat} (h : Enrolled b seats)
    (hsame : ∀ (k : Nat) (t : Trader),
      seats'[k]? = some (.working t) ↔ seats[k]? = some (.working t)) :
    Enrolled b seats' where
  enrols := h.enrols.congr fun _ m _ => exists_congr fun t => and_congr_left' (hsame m t).symm
  machine k t hk := h.machine k t ((hsame k t).mp hk)

theorem set_idle (h : Enrolled b seats) (hk : seats[k]? = some old)
    (hold : ∀ t, old ≠ .working t) (hnew : ∀ t, new ≠ .working t) :
    Enrolled b (seats.set k new) := by
  obtain ⟨hlt, rfl⟩ := List.getElem?_eq_some_iff.mp hk
  refine h.of_working fun j t => (getElem?_set_iff hlt).trans ⟨?_, fun hj => ?_⟩
  · rintro (⟨-, heq⟩ | ⟨-, hj⟩)
    · exact absurd heq.symm (hnew t)
    · exact hj
  · refine .inr ⟨?_, hj⟩
    rintro rfl
    exact hold t (Option.some.inj (hk.symm.trans hj))

theorem begin (h : Enrolled b seats) {opportunity : Opportunity}
    (hk : seats[k]? = some (.waiting opportunity)) (hid : t.subscription = b.next)
    (hm : t.machine = k) :
    Enrolled (b.subscribe .stop (.run k t.plan.botId)).2 (seats.set k (.working t)) := by
  obtain ⟨hlt, -⟩ := List.getElem?_eq_some_iff.mp hk
  constructor
  · refine (h.enrols.enter k t.plan.botId).congr fun id m bot => ⟨?_, ?_⟩
    · rintro (⟨u, hu, hroll⟩ | ⟨rfl, rfl, rfl⟩)
      · refine ⟨u, (getElem?_set_iff hlt).mpr (.inr ⟨?_, hu⟩), hroll⟩
        rintro rfl
        exact nomatch hk.symm.trans hu
      · exact ⟨t, List.getElem?_set_self hlt, hid, rfl⟩
    · rintro ⟨u, hu, rfl, rfl⟩
      rcases (getElem?_set_iff hlt).mp hu with ⟨rfl, heq⟩ | ⟨-, hu⟩
      · cases heq
        exact .inr ⟨hid, rfl, rfl⟩
      · exact .inl ⟨u, hu, rfl, rfl⟩
  · intro j u hu
    rcases (getElem?_set_iff hlt).mp hu with ⟨rfl, heq⟩ | ⟨-, hu⟩
    · cases heq
      exact hm
    · exact h.machine j u hu

theorem go_on (h : Enrolled b seats) (hk : seats[k]? = some (.working t)) (run : Run) :
    Enrolled b (seats.set k (.working { t with run := run })) := by
  obtain ⟨hlt, -⟩ := List.getElem?_eq_some_iff.mp hk
  constructor
  · refine h.enrols.congr fun id m bot => ⟨?_, ?_⟩
    · rintro ⟨u, hu, hroll⟩
      by_cases hmk : m = k
      · subst hmk
        cases hk.symm.trans hu
        exact ⟨_, List.getElem?_set_self hlt, hroll⟩
      · exact ⟨u, (getElem?_set_iff hlt).mpr (.inr ⟨hmk, hu⟩), hroll⟩
    · rintro ⟨u, hu, hroll⟩
      rcases (getElem?_set_iff hlt).mp hu with ⟨rfl, heq⟩ | ⟨-, hu⟩
      · cases heq
        exact ⟨t, hk, hroll⟩
      · exact ⟨u, hu, hroll⟩
  · intro j u hu
    rcases (getElem?_set_iff hlt).mp hu with ⟨rfl, heq⟩ | ⟨-, hu⟩
    · cases heq
      exact h.machine j t hk
    · exact h.machine j u hu

theorem leave (h : Enrolled b seats) (hk : seats[k]? = some (.working t))
    (hnew : ∀ t, new ≠ .working t) :
    Enrolled (b.unsubscribe t.subscription).2 (seats.set k new) := by
  obtain ⟨hlt, -⟩ := List.getElem?_eq_some_iff.mp hk
  have hworks : ∀ (j : Nat) (u : Trader), (seats.set k new)[j]? = some (.working u) ↔
      j ≠ k ∧ seats[j]? = some (.working u) := by
    intro j u
    rw [getElem?_set_iff hlt]
    exact or_iff_right fun heq => hnew u heq.2.symm
  have hroll : roll seats t.subscription k t.plan.botId := ⟨t, hk, rfl, rfl⟩
  constructor
  · refine (h.enrols.strike hroll).congr fun id m bot => ⟨?_, ?_⟩
    · rintro ⟨⟨u, hu, rfl, rfl⟩, hne⟩
      refine ⟨u, (hworks m u).mpr ⟨?_, hu⟩, rfl, rfl⟩
      rintro rfl
      cases hk.symm.trans hu
      exact hne rfl
    · rintro ⟨u, hu, rfl, rfl⟩
      obtain ⟨hmk, hu⟩ := (hworks m u).mp hu
      have hroll' : roll seats u.subscription m u.plan.botId := ⟨u, hu, rfl, rfl⟩
      refine ⟨hroll', fun heq => hmk ?_⟩
      -- No two runs have the same number.
      have hentry := h.enrols.entry_eq hroll ((h.enrols.listed _ _ _).mpr hroll') heq
      exact (Subscriber.run.inj (Prod.ext_iff.mp hentry).2).1
  · exact fun j u hu => h.machine j u ((hworks j u).mp hu).2

end Enrolled

theorem Enrolled.grow (h : Enrolled b seats) (opportunities : List Opportunity) :
    Enrolled b (seats ++ opportunities.map .waiting) := by
  refine h.of_working fun k t => ?_
  by_cases hk : k < seats.length
  · rw [List.getElem?_append_left hk]
  · rw [List.getElem?_append_right (Nat.le_of_not_lt hk),
      List.getElem?_eq_none (Nat.le_of_not_lt hk), List.getElem?_map]
    simp

theorem keeps_enrolled : Keeps fun _ => Enrolled where
  grow h := h.grow _
  enlist kind h := ⟨h.enrols.subscribe kind nofun, h.machine⟩
  begin h hk hid hm := h.begin hk hid hm
  refuse h hk := h.set_idle hk (by simp) (by simp)
  goOn run h hk := h.go_on hk run
  leave h hk := h.leave hk (by simp)
  vacate h hk := h.set_idle hk (by simp) (by simp)

theorem enrolled_create (setup : Setup) (wallet : SimulatedWallet) :
    Enrolled (create setup wallet).desk.bus (create setup wallet).seats := by
  have hstaffed : ∀ b : Bus Subscriber, b.Ordered → (((b.subscribe .trade .overseer).2.subscribe
      .cycle .overseer).2.subscribe .stop .overseer).2.Ordered :=
    fun b h => ((h.subscribe .trade _).subscribe .cycle _).subscribe .stop _
  have hfirst := hstaffed {} Bus.ordered_empty
  rw [create_eq]
  have hnobody : ∀ id m bot, ¬ roll [] id m bot := fun id m bot ⟨t, hk, _⟩ => nomatch hk
  refine ⟨⟨?_, fun id m bot => iff_of_false (by simp) (hnobody id m bot)⟩,
    fun k t hk => nomatch hk⟩
  cases setup.settings.trading.simulate with
  | true => exact hfirst.subscribe .trade .wallet
  | false => exact hfirst

/-! ## What becomes of a seat -/

/-- What a turn makes of a seat whose machine is `cancelled` or not. -/
inductive Seat.Goes (cancelled : Bool) : Seat → Seat → Prop
  | stays (seat : Seat) : Goes cancelled seat seat
  | begins {opportunity : Opportunity} {t : Trader} :
    Goes cancelled (.waiting opportunity) (.working t)
  | refused {opportunity : Opportunity} {ending : Intake.Ending} :
    Goes cancelled (.waiting opportunity) (.leaving ending)
  | goesOn {t : Trader} (now : Moment) (reply : Reply) : Goes cancelled (.working t)
    (.working { t with run := (t.run.resume t.plan cancelled now reply).1 })
  | leaves {t : Trader} {ending : Intake.Ending} : Goes cancelled (.working t) (.leaving ending)
  | vacated {ending : Intake.Ending} : Goes cancelled (.leaving ending) .gone

theorem getElem?_settle (hk : s.seats[k]? = some seat) (e : Desk) :
    (s.settle e).seats[k]? = some seat := by
  rw [settle, foldl_hear_eq]
  exact (List.getElem?_append_left (List.getElem?_eq_some_iff.mp hk).1).trans hk

theorem seat_set (hk : s.seats[k]? = some old) (e : Desk) :
    ((s.settle e).setSeat k new).seats[k]? = some new :=
  List.getElem?_set_self (List.getElem?_eq_some_iff.mp (getElem?_settle hk e)).1

theorem proceed_asks {p : Run.Progress} {request : Request}
    (hrequest : (d.proceed k t p).2.run.request? (d.proceed k t p).2.plan = some request) :
    (d.proceed k t p).2 = { t with run := p.1 } := by
  rw [Desk.proceed_trader] at hrequest ⊢
  cases hfault : (d.carryOut p.2).2 with
  | none => rfl
  | some fault =>
    rw [hfault] at hrequest
    cases hrequest

variable (flags : Nat → Bool)

theorem goes_set (hk : s.seats[k]? = some seat) (hj : s.seats[j]? = some old)
    (hgoes : old.Goes (flags j) new) (e : Desk) :
    ∃ next, ((s.settle e).setSeat j new).seats[k]? = some next ∧ seat.Goes (flags k) next := by
  by_cases hjk : j = k
  · subst hjk
    cases hj.symm.trans hk
    exact ⟨new, seat_set hj e, hgoes⟩
  · exact ⟨seat, (List.getElem?_set_ne hjk).trans (getElem?_settle hk e), .stays seat⟩

theorem goes_proceed {p : Run.Progress} (hk : s.seats[k]? = some seat)
    (hj : s.seats[j]? = some old) (hasks : old.Goes (flags j) (.working { t with run := p.1 }))
    (hleaves : ∀ ending, old.Goes (flags j) (.leaving ending)) :
    ∃ next, (s.proceed j (d.proceed j t p).1 (d.proceed j t p).2).seats[k]? = some next ∧
      seat.Goes (flags k) next := by
  rcases proceed_cases s j (rfl : (d.proceed j t p).2 = _) with
    ⟨request, hrequest, hproceed⟩ | ⟨e, ending, -, hproceed⟩
  · rw [hproceed]
    refine goes_set flags hk hj ?_ _
    rwa [proceed_asks hrequest]
  · rw [hproceed]
    exact goes_set flags hk hj (hleaves ending) _

theorem goes_take (henrolled : Enrolled s.desk.bus s.seats) (hk : s.seats[k]? = some seat)
    (turn : Turn) : ∃ next, (s.take turn).seats[k]? = some next ∧
      seat.Goes (s.desk.machines k).cancelled next := by
  have hstays : ∀ v : Session, v.seats = s.seats → ∃ next, v.seats[k]? = some next ∧
      seat.Goes (s.desk.machines k).cancelled next :=
    fun v hseats => ⟨seat, hseats ▸ hk, .stays seat⟩
  have hsettled : ∀ e, ∃ next, (s.settle e).seats[k]? = some next ∧
      seat.Goes (s.desk.machines k).cancelled next :=
    fun e => ⟨seat, getElem?_settle hk e, .stays seat⟩
  let flags : Nat → Bool := fun m => (s.desk.machines m).cancelled
  have hbecomes := becomes_take s turn
  generalize s.take turn = v at hbecomes ⊢
  -- In each turn at most one seat changes; `goes_set` covers that seat and all others.
  cases hbecomes with
  | idle => exact hstays s rfl
  | operates hop => exact hsettled _
  | prepares change hchange => exact hstays _ rfl
  | begins hj hstart => exact goes_proceed flags hk hj .begins fun _ => .refused
  | refuses hj => exact goes_set flags hk hj .refused _
  | @replies now j reply t hj =>
    obtain rfl := henrolled.machine j t hj
    exact goes_proceed flags hk hj (.goesOn now reply) fun _ => .leaves
  | vacates hj => exact goes_set flags hk hj .vacated _
  | pays hdesk => exact hstays _ rfl
  | waits goal => exact hstays _ rfl
  | shutsDown => exact hsettled _
  | hasShutDown line => exact hstays _ rfl
  | publishes event => exact hsettled _
  | enlists kind => exact hstays _ rfl
  | looks waiter => exact hstays _ rfl
  | letsGo => exact hstays _ rfl

end LaunchDesk.Session
