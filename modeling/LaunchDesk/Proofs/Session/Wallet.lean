import LaunchDesk.Proofs.Desk.Owing
import LaunchDesk.Proofs.Session.Acting
import LaunchDesk.Proofs.Session.Balance

/-!
# The wallet and the overseer

When trading is simulated, two balances are kept: the overseer counts a trade at once, and the
wallet is changed later on. If the changes are made in the order of the trades, and nobody publishes
a trade while the overseer has one in hand, those that are still to be made always lead from the one
balance to the other.
-/

namespace LaunchDesk.Session

open Desk (Customs Does Owing Survives)
open Run (announced sampleFill)

variable {Q : Decimal → List Decimal → Prop} {allows : Customs} {s v : Session} {d : Desk}
variable {t : Trader} {k : Nat} {p : Run.Progress} {turn : Turn} {turns : List Turn}

/-! ## What trades keep -/

theorem IsBooked.serves (h : s.IsBooked) (hsimulate : s.setup.settings.trading.simulate = true) :
    s.desk.Serves := by
  obtain ⟨others, htrades, hothers⟩ := h.trades
  rw [hsimulate] at htrades
  exact ⟨others, htrades, hothers⟩

theorem IsBooked.holds_eq_false (h : s.IsBooked)
    (hsimulate : s.setup.settings.trading.simulate = true)
    (hk : s.seats[k]? = some (.working t)) :
    Bus.holds t.subscription [(1, Subscriber.overseer), (4, .wallet)] = false := by
  have hmem : t.subscription ∈ subscriptions s.seats :=
    List.mem_filterMap.mpr ⟨_, List.mem_of_getElem? hk, rfl⟩
  obtain ⟨-, -, htrade, -⟩ := h.working _ hmem
  exact (h.serves hsimulate).holds_eq_false htrade

theorem owing_settle {e : Desk} (h : e.Owing Q) : (s.settle e).desk.Owing Q := by
  rwa [desk_settle]

theorem Concludes.owing {e : Desk} {ending : Intake.Ending}
    (hconcludes : Concludes allows d t e ending)
    (hwaits : ∀ bot fill, ¬ allows true (.trade bot fill)) (hq : Survives Q) (hserves : d.Serves)
    (h : d.Owing Q) : e.Owing Q := by
  cases hconcludes with
  | alone hothers hconclude =>
    obtain rfl | ⟨line, rfl⟩ := conclude_alone hothers hconclude
    · exact h
    · exact h.note rfl
  | stopping hothers hconclude hstop => exact hstop.owing rfl hwaits hq hserves h

theorem Proceeds.owing (hproceeds : Proceeds allows s k d t p v)
    (hwaits : ∀ bot fill, ¬ allows true (.trade bot fill)) (hq : Survives Q) (hserves : d.Serves)
    (hid : Bus.holds t.subscription [(1, Subscriber.overseer), (4, .wallet)] = false)
    (h : d.Owing Q) : v.desk.Owing Q := by
  obtain ⟨e, fault, hcarry, hcases⟩ := hproceeds.cases
  have hcarried : e.Owing Q := hcarry.owing rfl hwaits hq hserves h
  rcases hcases with ⟨request, rfl⟩ | ⟨g, ending, hconcludes, rfl⟩
  · exact owing_settle (hcarried.note rfl)
  · have hleft : (e.leave t).Serves :=
      (Desk.endures_serves.does (.inl rfl) hcarry hserves).unsubscribe hid
    exact owing_settle ((hconcludes.owing hwaits hq hleft hcarried).note rfl)

/-- Every turn keeps what trades keep, unless the session is let go. -/
theorem Takes.owing (htakes : Takes allows s turn v)
    (hwaits : ∀ bot fill, ¬ allows true (.trade bot fill)) (hbooked : s.IsBooked)
    (hsimulate : s.setup.settings.trading.simulate = true) (hturn : turn ≠ .letGo)
    (hq : Survives Q) (h : s.desk.Owing Q) : v.desk.Owing Q := by
  have hserves := hbooked.serves hsimulate
  -- Only published events reach the overseer; a silent turn leaves the desk as far as `Owing` goes.
  cases htakes with
  | publish hpublish => exact owing_settle (hpublish.owing rfl hwaits hq hserves h)
  | shutdown hstop => exact owing_settle (hstop.owing rfl hwaits hq hserves h)
  | reply hk hproceeds =>
    exact hproceeds.owing hwaits hq hserves (hbooked.holds_eq_false hsimulate hk) h
  | silent hsilent =>
    have hbecomes := becomes_take s turn
    generalize s.take turn = v at hbecomes ⊢
    cases hbecomes with
    | idle => exact h
    | operates hop => exact owing_settle (h.updateIntake _)
    | prepares change hchange => exact h
    | @begins now k opportunity hk hstart =>
      -- The run gets the next number, which is neither the overseer's nor the wallet's.
      have hnext := hserves.holds_eq_false (Bus.holds_of_lt (hbooked.numbered .trade))
      have hproceeds : Proceeds allows s k _ _ _ _ := proceeds_beginning s now k opportunity
      exact hproceeds.owing hwaits hq hserves hnext (h.note rfl)
    | refuses hk => exact owing_settle ((h.note rfl).note rfl)
    | replies hk => exact absurd hk (hsilent _)
    | vacates hk => exact owing_settle (h.updateIntake _)
    | pays hdesk =>
      obtain rfl | ⟨line, rfl⟩ := hdesk
      · exact h
      · exact h.note rfl
    | waits goal => exact h
    | shutsDown => exact hsilent.elim
    | hasShutDown line => exact h.note rfl
    | publishes event => exact hsilent.elim
    | enlists kind => exact h
    | looks waiter => exact h
    | letsGo => exact absurd rfl hturn

/-! ## Changes that are still to be made -/

/-- The overseer has counted every change of the wallet since the start, and the wallet has been
through all but those that are still owed, in the same order. -/
structure Squared (start : Decimal) (s : Session) : Prop where
  counted : s.desk.Owing fun balance dues => dues.foldlM Decimal.add start = .ok balance
  paid : ∃ paid, Desk.dues s.desk.notes = paid ++ s.owed ∧
    paid.foldlM Decimal.add start = .ok s.wallet.balance

variable {start : Decimal}

/-- The changes that are owed lead from the balance of the wallet to that of the overseer. -/
theorem Squared.owed_eq (h : Squared start s) :
    ∃ o, s.desk.overseer = some o ∧
      s.owed.foldlM Decimal.add s.wallet.balance = .ok o.balance := by
  obtain ⟨o, ho, hcounted⟩ := h.counted
  obtain ⟨paid, hdues, hpaid⟩ := h.paid
  rw [hdues, List.foldlM_append, hpaid] at hcounted
  exact ⟨o, ho, hcounted⟩

theorem foldlM_add_snoc {dues : List Decimal} {balance amount sum : Decimal}
    (h : dues.foldlM Decimal.add start = .ok balance) (hadd : balance.add amount = .ok sum) :
    (dues ++ [amount]).foldlM Decimal.add start = .ok sum := by
  rw [List.foldlM_append, h]
  change [amount].foldlM Decimal.add balance = .ok sum
  rw [List.foldlM_cons, hadd]
  rfl

theorem survives_count :
    Survives fun balance dues => dues.foldlM Decimal.add start = .ok balance :=
  fun _ _ _ _ hl hadd => foldlM_add_snoc hl hadd

/-- The oldest change of the wallet does not overflow, for the overseer has counted it. -/
theorem Squared.pay (h : Squared start s) (hwallet : s.setup.walletFault = none)
    (hcounted : (s.pay 0).desk.Owing fun balance dues =>
      dues.foldlM Decimal.add start = .ok balance) : Squared start (s.pay 0) := by
  obtain ⟨o, -, howed⟩ := h.owed_eq
  obtain ⟨paid, hdues, hpaid⟩ := h.paid
  refine ⟨hcounted, ?_⟩
  unfold Session.pay
  -- The change at the head is the next one the overseer had counted, so its sum is known to exist.
  cases hs : s.owed with
  | nil => exact ⟨paid, hdues, hpaid⟩
  | cons amount owed =>
    rw [hs, List.foldlM_cons] at howed
    cases hadd : s.wallet.balance.add amount with
    | error fault =>
      rw [hadd] at howed
      cases howed
    | ok sum =>
      simp only [List.getElem?_cons_zero, List.eraseIdx_cons_zero, hwallet,
        SimulatedWallet.applyDelta, hadd]
      refine ⟨paid ++ [amount], ?_, foldlM_add_snoc hpaid hadd⟩
      change Desk.dues (s.desk.notes ++ [_]) = _
      rw [Desk.dues_append, hdues, hs]
      simp [Desk.dues]

theorem Squared.carries (h : Squared start s) (hcarries : Carries s v)
    (hcounted : v.desk.Owing fun balance dues => dues.foldlM Decimal.add start = .ok balance) :
    Squared start v := by
  obtain ⟨more, hmore, howed⟩ := hcarries.owed
  obtain ⟨paid, hdues, hpaid⟩ := h.paid
  refine ⟨hcounted, paid, ?_, ?_⟩
  · rw [hmore, Desk.dues_append, hdues, howed, List.append_assoc]
  · rw [hcarries.wallet]
    exact hpaid

theorem Squared.takes (h : Squared start s) (htakes : Takes allows s turn v)
    (hwaits : ∀ bot fill, ¬ allows true (.trade bot fill)) (hbooked : s.IsBooked)
    (hsimulate : s.setup.settings.trading.simulate = true) (hwallet : s.setup.walletFault = none)
    (hturn : turn ≠ .letGo) (hpay : ∀ i, turn = .move (.pay i) → i = 0) : Squared start v := by
  have hcounted := htakes.owing hwaits hbooked hsimulate hturn survives_count h.counted
  by_cases hpays : ∃ i, turn = .move (.pay i)
  · obtain ⟨i, rfl⟩ := hpays
    obtain rfl := hpay i rfl
    rw [htakes.eq_pay] at hcounted ⊢
    exact h.pay hwallet hcounted
  · exact h.carries (htakes.carries hturn fun i heq => hpays ⟨i, heq⟩) hcounted

/-! ## Any number of turns -/

def played (setup : Setup) (wallet : SimulatedWallet) (turns : List Turn) : Session :=
  turns.foldl take (create setup wallet)

theorem played_snoc (setup : Setup) (wallet : SimulatedWallet) (turns : List Turn) (turn : Turn) :
    played setup wallet (turns ++ [turn]) = (played setup wallet turns).take turn :=
  List.foldl_append

theorem squared_create (setup : Setup) (wallet : SimulatedWallet) :
    Squared wallet.balance (create setup wallet) := by
  rw [create_eq]
  exact ⟨⟨_, rfl, rfl⟩, [], rfl, rfl⟩

/-- The changes of the wallet are made in the order in which they came up. -/
def InOrder (turns : List Turn) : Prop := ∀ i, .move (.pay i) ∈ turns → i = 0

theorem squared_plays {setup : Setup} {wallet : SimulatedWallet}
    (hsimulate : setup.settings.trading.simulate = true) (hwallet : setup.walletFault = none)
    (hwaits : ∀ bot fill, ¬ allows true (.trade bot fill))
    (hplays : Plays allows (create setup wallet) turns s) (horder : InOrder turns) :
    s.setup = setup ∧ (s.held = true → s.IsBooked ∧ Squared wallet.balance s) := by
  -- The subscriptions have to be in order for the wallet to be told of a trade before all who act,
  -- so `IsBooked` goes along with `Squared`.
  induction hplays with
  | start => exact ⟨rfl, fun _ => ⟨isBooked_create setup wallet, squared_create setup wallet⟩⟩
  | turn hplays htakes ih =>
    next turns turn v w =>
    obtain ⟨hsetup, hkept⟩ := ih fun i hmem => horder i (List.mem_append_left _ hmem)
    subst hsetup
    obtain ⟨hsame, hheld⟩ := htakes.house
    refine ⟨hsame, fun hlives => ?_⟩
    have hturn : turn ≠ .letGo := by
      rintro rfl
      rw [htakes.eq_letGo] at hlives
      cases hlives
    obtain ⟨hbooked, hsquared⟩ := hkept ((hheld hturn).symm.trans hlives)
    have hpay : ∀ i, turn = .move (.pay i) → i = 0 := fun i heq =>
      horder i (List.mem_append_right _ (heq ▸ List.mem_cons_self))
    exact ⟨htakes.isBooked hturn hbooked,
      hsquared.takes htakes hwaits hbooked hsimulate hwallet hturn hpay⟩
  | act hplays hact ih =>
    obtain ⟨hsetup, hkept⟩ := ih horder
    subst hsetup
    have hcarries := carries_does hact
    refine ⟨hcarries.setup, fun hlives => ?_⟩
    obtain ⟨hbooked, hsquared⟩ := hkept (hcarries.held.symm.trans hlives)
    have hcounted :=
      hact.owing rfl hwaits survives_count (hbooked.serves hsimulate) hsquared.counted
    exact ⟨hbooked.does hact, hsquared.carries hcarries (owing_settle hcounted)⟩

/-! ## A trade that cannot be counted -/

/-- The events that a turn publishes, those that follow from them apart. -/
def events (s : Session) : Turn → List Event
  | .publish event => [event]
  | .move move => (s.published move).events
  | _ => []

theorem terse_published (s : Session) (move : Move) :
    ∃ bot, Run.Terse bot (s.published move).events := by
  have hquiet : ∃ bot, Run.Terse bot (Chronicle.events []) := ⟨default, .inl rfl⟩
  cases move with
  | begin now k =>
    simp only [published]
    split
    · rw [Chronicle.events_entries]
      exact ⟨default, .inl (Run.start_spec _ _ _ default).1⟩
    · exact hquiet
  | reply now k reply =>
    simp only [published]
    split
    · rw [Chronicle.events_entries]
      exact ⟨_, Run.terse_resume ..⟩
    · exact hquiet
  | _ => exact hquiet

theorem events_eq_cons {bot : BotId} {fill : Fill} (h : .trade bot fill ∈ s.events turn) :
    ∃ others, s.events turn = .trade bot fill :: others := by
  cases turn with
  | publish event => exact ⟨[], congrArg (· :: []) (List.mem_singleton.mp h).symm⟩
  | move move =>
    simp only [events] at h ⊢
    obtain ⟨name, hnone | ⟨only, hevents | ⟨outcome, hevents⟩⟩⟩ := terse_published s move
    · rw [hnone] at h
      cases h
    · rw [hevents] at h ⊢
      exact ⟨[], congrArg (· :: []) (List.mem_singleton.mp h).symm⟩
    · rw [hevents] at h ⊢
      have hfirst : Event.trade bot fill = .trade name only := by simpa using h
      exact ⟨_, by rw [hfirst]⟩
  | enlist kind => cases h
  | look waiter => cases h
  | letGo => cases h

theorem events_of_silent (hsilent : s.IsSilent turn) : s.events turn = [] := by
  cases turn with
  | publish event => exact hsilent.elim
  | move move =>
    cases move with
    | begin now k =>
      simp only [events, published]
      split
      · exact (Chronicle.events_entries k _).trans (Run.start_spec _ _ _ default).1
      · rfl
    | reply now k reply =>
      simp only [events, published]
      split
      · next t hk => exact absurd hk (hsilent t)
      · rfl
    | _ => rfl
  | _ => rfl

/-- It changes neither the balance nor what is noted for the wallet. -/
theorem Takes.overflow {o : Overseer} {bot : BotId} {fill : Fill} {bad : Decimal.Fault}
    (htakes : Takes allows s turn v) (hserves : s.desk.Serves) (ho : s.desk.overseer = some o)
    (hmem : .trade bot fill ∈ s.events turn) (hbad : o.balance.add fill.balanceDelta = .error bad) :
    v.desk.Owing fun balance dues => balance = o.balance ∧ dues = Desk.dues s.desk.notes := by
  cases htakes with
  | silent hsilent =>
    rw [events_of_silent hsilent] at hmem
    cases hmem
  | publish hpublish =>
    obtain rfl := List.mem_singleton.mp hmem
    obtain ⟨rfl, -⟩ := hpublish.overflow_eq hserves ho hbad
    have hsame : s.desk.Owing fun balance dues =>
      balance = o.balance ∧ dues = Desk.dues s.desk.notes := ⟨o, ho, rfl, rfl⟩
    exact owing_settle (hsame.note rfl)
  | shutdown hstop => cases hmem
  | reply hk hproceeds =>
    next now k reply t =>
    obtain ⟨others, hevents⟩ := events_eq_cons hmem
    have hannounced : s.events (.move (.reply now k reply)) = announced
        (t.run.resume t.plan (s.desk.machines t.machine).cancelled now reply).2 := by
      simp only [events, published, hk]
      exact Chronicle.events_entries k _
    obtain ⟨e, fault, hcarry, hcases⟩ := hproceeds.cases
    -- The trade comes first, so the run crashes before it has told of anything.
    obtain ⟨hoverseer, hdues, rfl⟩ :=
      hcarry.carryOut_overflow hserves ho hbad (hannounced.symm.trans hevents)
    have hcarried : e.Owing fun balance dues =>
      balance = o.balance ∧ dues = Desk.dues s.desk.notes := ⟨o, hoverseer, rfl, hdues⟩
    rcases hcases with ⟨request, rfl⟩ | ⟨g, ending, hconcludes, rfl⟩
    · exact owing_settle (hcarried.note rfl)
    · -- A run that has crashed stops nobody.
      have hleft : (e.leave t).Owing fun balance dues =>
        balance = o.balance ∧ dues = Desk.dues s.desk.notes := hcarried
      cases hconcludes with
      | alone hothers hconclude =>
        obtain rfl | ⟨line, rfl⟩ := conclude_alone hothers hconclude
        · exact owing_settle (hleft.note rfl)
        · exact owing_settle ((hleft.note rfl).note rfl)
      | stopping hothers hconclude hstop =>
        obtain ⟨-, fault, hphase, -⟩ := hothers
        cases hphase

/-- While a session that simulates trading has not been let go, the wallet and the overseer have the
same balance, digit for digit, as soon as all changes of the wallet have been made, and none of
those overflows. A trade that would make the balance of the overseer overflow changes neither of
the two. Others may act whenever they are told of something, but `hwaits` keeps them from publishing
trades while the overseer has one in hand, and `horder` has the changes made one after the other. -/
theorem wallet_agrees_with_overseer (setup : Setup) (wallet : SimulatedWallet)
    (hsimulate : setup.settings.trading.simulate = true) (hwallet : setup.walletFault = none)
    (hwaits : ∀ bot fill, ¬ allows true (.trade bot fill)) (horder : InOrder turns)
    (hplays : Plays allows (create setup wallet) turns s) (hheld : s.held = true) :
    ∃ o, s.desk.overseer = some o ∧
      (s.owed = [] → s.wallet.balance = o.balance) ∧
      s.owed.foldlM Decimal.add s.wallet.balance = .ok o.balance ∧
      ∀ turn v bot fill fault, Takes allows s turn v → .trade bot fill ∈ s.events turn →
        o.balance.add fill.balanceDelta = .error fault →
        ∃ p, v.desk.overseer = some p ∧ p.balance = o.balance ∧
          v.wallet = s.wallet ∧ v.owed = s.owed := by
  obtain ⟨hsetup, hkept⟩ := squared_plays hsimulate hwallet hwaits hplays horder
  obtain ⟨hbooked, hsquared⟩ := hkept hheld
  obtain ⟨o, ho, howed⟩ := hsquared.owed_eq
  refine ⟨o, ho, fun hsettled => ?_, howed, ?_⟩
  · rw [hsettled] at howed
    exact Except.ok.inj howed
  · intro turn v bot fill fault htakes hmem hfault
    have hturn : turn ≠ .letGo := by
      rintro rfl
      cases hmem
    have hpay : ∀ i, turn ≠ .move (.pay i) := by
      rintro i rfl
      cases hmem
    obtain ⟨p, hp, hbalance, hdues⟩ :=
      htakes.overflow (hbooked.serves (hsetup ▸ hsimulate)) ho hmem hfault
    have hcarries := htakes.carries hturn hpay
    obtain ⟨more, hmore, howes⟩ := hcarries.owed
    rw [hmore, Desk.dues_append] at hdues
    have hnone : Desk.dues more = [] :=
      List.append_cancel_left (hdues.trans (List.append_nil _).symm)
    refine ⟨p, hp, hbalance, hcarries.wallet, ?_⟩
    rw [howes, hnone, List.append_nil]

/-! ## Two sessions -/

/-- Those who act wait for the overseer to be done with a trade before they publish another. -/
def patient : Customs := fun inHand event => inHand = true → event.kind ≠ .trade

/-- Someone answers the first trade with another one before the wallet is changed at all. A third
would make the balance overflow, and the zeros at the end of the answer are kept. -/
def sampleTurns : List Turn :=
  [.enlist .trade, .publish (.trade default (sampleFill .sell .one)),
    .publish (.trade default
      (sampleFill .sell ⟨false, Decimal.limit - 1, 0, by decide, by decide⟩)),
    .move (.pay 0), .move (.pay 0)]

theorem plays_sampleTurns :
    ∃ s, Plays patient (create sampleSetup ⟨.one⟩) sampleTurns s ∧ s.held = true ∧ s.owed = [] ∧
      s.wallet.balance = .ofSmall 1500 3 := by
  have hpatient : patient false (.trade default (sampleFill .buy (.ofSmall 500 3))) := nofun
  refine ⟨_, ((((Plays.start.turn (takes_take _ (.enlist .trade))).turn (.publish (.publish
    ((Desk.does_tellTrades default (sampleFill .sell .one) [(1, .overseer), (4, .wallet)] _).append
      (.call (.say hpatient (Desk.does_publish _ _) .done) .told))))).turn (takes_take _ _)).turn
      (takes_take _ _)).turn (takes_take _ _), ?_⟩
  decide +kernel

theorem sample_wallet_agrees :
    ∃ s o, Plays patient (create sampleSetup ⟨.one⟩) sampleTurns s ∧ s.owed = [] ∧
      s.desk.overseer = some o ∧ s.wallet.balance = o.balance ∧ o.balance = .ofSmall 1500 3 := by
  obtain ⟨s, hplays, hheld, hsettled, hbalance⟩ := plays_sampleTurns
  have horder : InOrder sampleTurns := by simp [InOrder, sampleTurns]
  obtain ⟨o, ho, hagree, -⟩ := wallet_agrees_with_overseer sampleSetup ⟨.one⟩ rfl rfl
    (fun _ _ h => h rfl rfl) horder hplays hheld
  have hsame := hagree hsettled
  exact ⟨s, o, hplays, hsettled, ho, hsame, hsame.symm.trans hbalance⟩

/-- One open position is enough for the intake to be stopped. -/
def crowdedSetup : Setup where
  settings := { sampleSetup.settings with limits := { maxOpenPositions := some 1 } }
  classify := sampleSetup.classify
  strategies := sampleSetup.strategies
  names := sampleSetup.names

/-- Someone is told of stops, and a buy fills the last place. -/
def crowdedTurns : List Turn :=
  [.enlist .stop, .publish (.trade default (sampleFill .buy (.ofSmall 100 2))), .move (.pay 0),
    .move (.pay 0)]

theorem plays_crowdedTurns (e : Desk)
    (h : Does (fun _ _ => True) false
      (.publish (.trade default (sampleFill .buy (.ofSmall 100 2))))
      ((create crowdedSetup ⟨.ofSmall 100 2⟩).take (.enlist .stop)).desk e none) :
    Plays (fun _ _ => True) (create crowdedSetup ⟨.ofSmall 100 2⟩) crowdedTurns
      (((((create crowdedSetup ⟨.ofSmall 100 2⟩).take (.enlist .stop)).settle e).pay 0).pay 0) :=
  (((Plays.start.turn (takes_take _ _)).turn (.publish h)).turn (takes_take _ _)).turn
    (takes_take _ _)

/-- The change that came up second is made first. -/
def swappedTurns : List Turn :=
  [.publish (.trade default (sampleFill .buy (.ofSmall 100 2))),
    .publish (.trade default (sampleFill .sell (.ofSmall 5 0))), .move (.pay 1), .move (.pay 0)]

/-- The two hypotheses are needed. A sell that answers the stop within the buy is counted after the
buy, and changes the wallet before it; so do changes that are made in another order. -/
theorem wallet_may_differ :
    (∃ s, Plays (fun _ _ => True) (create crowdedSetup ⟨.ofSmall 100 2⟩) crowdedTurns s ∧
      InOrder crowdedTurns ∧ s.held = true ∧ s.owed = [] ∧
        s.desk.overseer.map Overseer.balance = some (.ofSmall 5 0) ∧
        s.wallet.balance = .ofSmall 500 2) ∧
      (let s := played sampleSetup ⟨.ofSmall 100 2⟩ swappedTurns
      s.held = true ∧ s.owed = [] ∧ s.desk.overseer.map Overseer.balance = some (.ofSmall 5 0) ∧
        s.wallet.balance = .ofSmall 500 2) ∧
      Decimal.ofSmall 500 2 ≠ .ofSmall 5 0 := by
  refine ⟨?_, by decide +kernel, by decide⟩
  apply Exists.intro
  constructor
  -- The buy reaches the ceiling, and the stop is asked for before the wallet hears of the buy.
  · apply plays_crowdedTurns
    apply Does.publish
    apply Does.count rfl
    · -- Two lines for the log come before the request, and the sell comes from whoever is told.
      apply Does.obey
      · nofun
      apply Does.obey
      · nofun
      apply Does.ask
      · apply Does.publish
        apply Does.tell (by nofun) (by rfl)
        exact .call (.say trivial
          (Desk.does_publish _ (.trade default (sampleFill .sell (.ofSmall 5 0)))) .done) .told
      · exact .obeyed
    · exact .tell nofun rfl .told
  · refine ⟨by simp [InOrder, crowdedTurns], ?_⟩
    decide +kernel

end LaunchDesk.Session
