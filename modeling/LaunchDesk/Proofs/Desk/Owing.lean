import LaunchDesk.Proofs.Desk.Acting

/-!
# What the wallet is owed

The overseer is told of a trade before the wallet is, and a count that overflows keeps the trade
from the wallet. Between the two the overseer may have asked for a stop, and whoever is told of that
may act. As long as no trade is published at that time, the balance of the overseer and the changes
noted for the wallet stay in step, however deep trades are nested.
-/

namespace LaunchDesk

namespace Desk

variable {Q : Decimal → List Decimal → Prop} {allows : Customs} {inHand : Bool}
variable {d e : Desk} {bot : BotId} {fill : Fill} {fault : Option Decimal.Fault}

/-- `Q` holds of the overseer's balance and of all changes of the wallet that were noted. -/
def Owing (Q : Decimal → List Decimal → Prop) (d : Desk) : Prop :=
  ∃ o, d.overseer = some o ∧ Q o.balance (dues d.notes)

theorem dues_of_isPlain {n : Note} (hn : n.isPlain = true) : dues [n] = [] := by
  cases n with
  | log line => rfl
  | recorded event => rfl
  | _ => cases hn

theorem dues_relay (notes : List Intake.Note) : dues (notes.filterMap relay?) = [] := by
  induction notes with
  | nil => rfl
  | cons n notes ih => cases n <;> exact ih

theorem Owing.note {n : Note} (h : Owing Q d) (hn : dues [n] = []) : Owing Q (d.note n) := by
  obtain ⟨o, ho, hq⟩ := h
  refine ⟨o, ho, ?_⟩
  rw [Desk.note, dues_append, hn, List.append_nil]
  exact hq

theorem Owing.updateIntake (h : Owing Q d) (i : Intake) : Owing Q (d.updateIntake i) := by
  obtain ⟨o, ho, hq⟩ := h
  obtain ⟨-, hoverseer, -, hnotes⟩ := updateIntake_eq d i
  refine ⟨o, hoverseer.trans ho, ?_⟩
  rw [hnotes, dues_append, dues_relay, List.append_nil]
  exact hq

theorem endures_owing (Q : Decimal → List Decimal → Prop) : Endures false (Owing Q) where
  note := fun hn h => h.note (dues_of_isPlain hn)
  cancel := fun _ h => h
  oversee := by
    rintro d o p ho hbalance ⟨_, ho', hq⟩
    obtain rfl := Option.some.inj (ho.symm.trans ho')
    exact ⟨p, rfl, hbalance ▸ hq⟩
  operate := fun i h => h.updateIntake i
  enlist := fun _ h => h
  withdraw := fun _ h => h
  count := nofun
  owed := nofun

/-! ## Who is told of trades -/

/-- The overseer is told of trades first and the wallet after it, and all others are free to act. -/
def Serves (d : Desk) : Prop :=
  ∃ others, d.bus.trades = (1, .overseer) :: (4, .wallet) :: others ∧
    ∀ e ∈ others, e.2 = .recorder

theorem Serves.of_bus (h : d.Serves) (hbus : e.bus.trades = d.bus.trades) : e.Serves := by
  unfold Serves
  rwa [hbus]

theorem Serves.holds_eq_false {id : SubscriptionId} (h : d.Serves)
    (hid : Bus.holds id d.bus.trades = false) :
    Bus.holds id [(1, Subscriber.overseer), (4, .wallet)] = false := by
  obtain ⟨others, htrades, -⟩ := h
  rw [htrades] at hid
  exact List.any_eq_false.mpr fun e he =>
    List.any_eq_false.mp hid e (List.mem_append_left others he)

theorem Serves.enlist (h : d.Serves) (kind : EventKind) :
    (d.subscribe kind .recorder).2.Serves := by
  have ⟨others, htrades, hothers⟩ := h
  cases kind with
  | trade =>
    refine ⟨others ++ [(d.bus.next, .recorder)], ?_, fun e he => ?_⟩
    · exact congrArg (· ++ [(d.bus.next, .recorder)]) htrades
    rcases List.mem_append.mp he with he | he
    · exact hothers e he
    · exact congrArg Prod.snd (List.mem_singleton.mp he)
  | cycle => exact h.of_bus rfl
  | stop => exact h.of_bus rfl

theorem Serves.unsubscribe {id : SubscriptionId} (h : d.Serves)
    (hid : Bus.holds id [(1, Subscriber.overseer), (4, .wallet)] = false) :
    (d.unsubscribe id).Serves := by
  obtain ⟨others, htrades, hothers⟩ := h
  have hlist : d.bus.subscribed .trade = [(1, .overseer), (4, .wallet)] ++ others := htrades
  obtain ⟨rest, hrest, hmem⟩ := Bus.subscribed_unsubscribe_append hlist hid
  exact ⟨rest, hrest, fun e he => hothers e (hmem e he)⟩

theorem Serves.withdraw {id : SubscriptionId} (h : d.Serves) (hid : d.bus.IsTheirs id) :
    (d.unsubscribe id).Serves := by
  have ⟨others, htrades, _⟩ := h
  have hlist : d.bus.subscribed .trade = [(1, .overseer), (4, .wallet)] ++ others := htrades
  exact h.unsubscribe (hid.holds_eq_false hlist (by simp))

theorem endures_serves : Endures true Serves where
  note := fun _ h => h
  cancel := fun _ h => h
  oversee := fun _ _ h => h
  operate := fun i h => h.of_bus (congrArg Bus.trades (updateIntake_eq _ i).2.2.1)
  enlist := fun kind h => h.enlist kind
  withdraw := fun hid h => h.withdraw hid
  count := fun _ _ h => h
  owed := fun _ _ h => h

/-! ## A trade on its way -/

/-- `Q` survives the count of a trade together with the change of the wallet. -/
def Survives (Q : Decimal → List Decimal → Prop) : Prop :=
  ∀ (fill : Fill) (b : Decimal) (l : List Decimal) (sum : Decimal), Q b l →
    b.add fill.balanceDelta = .ok sum → Q sum (l ++ [fill.balanceDelta])

/-- How far a trade has come, by those who are left to be told of it. The change is missing from
when the overseer has counted it until the wallet is told. -/
inductive Stage (Q : Decimal → List Decimal → Prop) (fill : Fill) (d : Desk) :
    List (SubscriptionId × Subscriber) → Prop
  | whole {others : List (SubscriptionId × Subscriber)} (hothers : ∀ e ∈ others, e.2 = .recorder)
    (h : d.Owing Q) : Stage Q fill d ((1, .overseer) :: (4, .wallet) :: others)
  | counted {others : List (SubscriptionId × Subscriber)}
    (hothers : ∀ e ∈ others, e.2 = .recorder)
    (h : d.Owing fun b l => Q b (l ++ [fill.balanceDelta])) :
    Stage Q fill d ((4, .wallet) :: others)
  | owed {others : List (SubscriptionId × Subscriber)} (hothers : ∀ e ∈ others, e.2 = .recorder)
    (h : d.Owing Q) : Stage Q fill d others

/-- What has to hold for `Q` to hold when the work is done. -/
def Awaits (Q : Decimal → List Decimal → Prop) : Work → Desk → Prop
  | .tell (.trade _ fill) left, d => Stage Q fill d left
  | _, d => d.Owing Q

theorem awaits_of_calm {event : Event} {left : List (SubscriptionId × Subscriber)}
    (hevent : event.kind ≠ .trade) : Awaits Q (.tell event left) d ↔ d.Owing Q := by
  cases event with
  | trade bot fill => exact absurd rfl hevent
  | cycle bot outcome => exact Iff.rfl
  | stop request => exact Iff.rfl

section

variable {event : Event} {id : SubscriptionId} {s : Subscriber}
variable {left : List (SubscriptionId × Subscriber)}

theorem Awaits.publish (h : d.Owing Q) (hserves : d.Serves) :
    Awaits Q (.tell event (d.bus.subscribed event.kind)) (d.log event.logLine) := by
  have hlogged : Owing Q (d.log event.logLine) := h.note rfl
  cases event with
  | trade bot fill =>
    obtain ⟨others, htrades, hothers⟩ := hserves
    change Stage Q fill _ d.bus.trades
    rw [htrades]
    exact .whole hothers hlogged
  | cycle bot outcome => exact hlogged
  | stop request => exact hlogged

theorem Awaits.told (h : Awaits Q (.tell event []) d) : d.Owing Q := by
  cases event with
  | trade bot fill =>
    cases h with
    | owed hothers h => exact h
  | cycle bot outcome => exact h
  | stop request => exact h

theorem Awaits.tell (h : Awaits Q (.tell event ((id, s) :: left)) d) (hs : s ≠ .recorder)
    (hcounts : d.counts? event s = none) : Awaits Q (.tell event left) (d.tell event s) := by
  cases event with
  | trade bot fill =>
    cases h with
    -- The overseer is next, and it counts; so it is the wallet that is told without a count.
    | whole hothers h =>
      obtain ⟨o, ho, -⟩ := h
      cases (counts?_some ho _).symm.trans hcounts
    | counted hothers h =>
      obtain ⟨o, ho, howing⟩ := h
      refine Stage.owed hothers ⟨o, ho, ?_⟩
      change Q o.balance (dues (d.notes ++ [_]))
      rw [dues_append]
      exact howing
    | owed hothers h => exact absurd (hothers _ List.mem_cons_self) hs
  | cycle bot outcome =>
    have htold : Owing Q (d.tell (.cycle bot outcome) s) := (endures_owing Q).tell (.inr nofun) h
    exact htold
  | stop request =>
    have htold : Owing Q (d.tell (.stop request) s) := (endures_owing Q).tell (.inr nofun) h
    exact htold

theorem Awaits.call (h : Awaits Q (.tell event ((id, .recorder) :: left)) d) :
    d.Owing Q ∧ ∀ e : Desk, e.Owing Q → Awaits Q (.tell event left) e := by
  cases event with
  | trade bot fill =>
    cases h with
    | owed hothers h =>
      exact ⟨h, fun e he => Stage.owed (fun e he => hothers e (List.mem_cons_of_mem _ he)) he⟩
  | cycle bot outcome => exact ⟨h, fun e he => he⟩
  | stop request => exact ⟨h, fun e he => he⟩

theorem Awaits.overflow (h : Awaits Q (.tell event ((id, s) :: left)) d) {bad : Decimal.Fault}
    (hcounts : d.counts? event s = some (.error bad)) : d.Owing Q := by
  cases event with
  | trade bot fill =>
    cases h with
    | whole hothers h => exact h
    | counted hothers h => cases hcounts
    | owed hothers h => exact h
  | cycle bot outcome => exact h
  | stop request => exact h

theorem Owing.counted {o : Overseer} {next : Overseer × List Overseer.Reaction} (h : d.Owing Q)
    (hq : Survives Q) (ho : d.overseer = some o) (hnext : o.onTrade bot fill = .ok next) :
    ({ d with overseer := some next.1 } : Desk).Owing fun b l =>
      Q b (l ++ [fill.balanceDelta]) := by
  obtain ⟨o', ho', howing⟩ := h
  obtain rfl := Option.some.inj (ho.symm.trans ho')
  rw [Overseer.onTrade_eq] at hnext
  cases hcount : o.count fill with
  | error fault =>
    rw [hcount] at hnext
    cases hnext
  | ok p =>
    rw [hcount] at hnext
    cases hnext
    refine ⟨_, rfl, hq fill _ _ _ howing ?_⟩
    unfold Overseer.count at hcount
    cases hsum : o.balance.add fill.balanceDelta with
    | error fault =>
      rw [hsum] at hcount
      cases hcount
    | ok sum =>
      rw [hsum] at hcount
      cases hcount
      rfl

/-- While the overseer has a trade in hand, the change is missing and stays so. -/
theorem Awaits.count {next : Overseer × List Overseer.Reaction} (hq : Survives Q)
    (hnone : ∀ bot fill, ¬ allows true (.trade bot fill))
    (h : Awaits Q (.tell (.trade bot fill) ((id, s) :: left)) d)
    (hcounts : d.counts? (.trade bot fill) s = some (.ok next))
    (hobey : Does allows true (.obey next.2) { d with overseer := some next.1 } e none) :
    Awaits Q (.tell (.trade bot fill) left) e := by
  cases h with
  -- From the count to the wallet the desk is short of just this change, whatever the overseer does.
  | whole hothers h =>
    obtain ⟨o, ho, hnext⟩ := Option.bind_eq_some_iff.mp hcounts
    have hcounted := h.counted hq ho (Option.some.inj hnext)
    have hcalm : (Work.obey next.2).IsCalm := trivial
    exact Stage.counted hothers
      ((endures_owing _).does (.inr ⟨rfl, hnone, hcalm⟩) hobey hcounted)
  | counted hothers h => cases hcounts
  | owed hothers h =>
    obtain rfl : s = .recorder := hothers _ List.mem_cons_self
    cases hcounts

end

/-- Whoever acts, the overseer and the wallet stay in step, if nobody publishes a trade while the
overseer has one in hand. -/
theorem Does.owing {work : Work} (hdoes : Does allows inHand work d e fault)
    (hfree : inHand = false) (hnone : ∀ bot fill, ¬ allows true (.trade bot fill))
    (hq : Survives Q) (hserves : d.Serves) (h : Awaits Q work d) : e.Owing Q := by
  -- By induction on what is done; while a trade is on its way, its stage is the invariant.
  induction hdoes with
  | publish htell ih => exact ih hfree hserves (.publish h hserves)
  | told => exact h.told
  | tell hs hcounts hleft ih =>
    exact ih hfree (endures_serves.tell (.inl rfl) hserves) (h.tell hs hcounts)
  | call hact hleft ihact ihleft =>
    have hserves' := endures_serves.does (.inl rfl) hact hserves
    exact ihleft hfree hserves' (h.call.2 _ (ihact hfree hserves (h.call.1.note rfl)))
  | count hcounts hobey hleft ihobey ihleft =>
    next inHand event d e f fault id s left next =>
    refine ihleft hfree (endures_serves.does (.inl rfl) hobey hserves) ?_
    by_cases hevent : event.kind = .trade
    · cases event with
      | trade bot fill => exact h.count hq hnone hcounts (by simpa [hfree, Event.kind] using hobey)
      | _ => cases hevent
    · rw [awaits_of_calm hevent] at h ⊢
      refine ihobey (by simp [hfree, hevent]) hserves ?_
      exact (endures_owing Q).count_event (.inr hevent) hcounts h
  | overflow hcounts => exact h.overflow hcounts
  | obeyed => exact h
  | ask hpublish hobey ihpublish ihobey =>
    exact ihobey hfree (endures_serves.does (.inl rfl) hpublish hserves)
      (ihpublish hfree hserves h)
  | obey hreaction hobey ih =>
    exact ih hfree (endures_serves.obey hreaction hserves) ((endures_owing Q).obey hreaction h)
  | done => exact h
  | say hallows hpublish hact ihpublish ihact =>
    exact ihact hfree (endures_serves.does (.inl rfl) hpublish hserves)
      (ihpublish hfree hserves h)
  | enlist kind hact ih => exact ih hfree (hserves.enlist kind) h
  | withdraw hid hact ih => exact ih hfree (hserves.withdraw hid) h
  | operate hop hact ih =>
    exact ih hfree (endures_serves.operate _ hserves) (Owing.updateIntake h _)
  | stopAll hpublish ih => exact ih hfree hserves (Owing.note h rfl)
  | carried => exact h
  | line hcarry ih => exact ih hfree hserves (Owing.note h rfl)
  | announce hpublish hcarry ihpublish ihcarry =>
    exact ihcarry hfree (endures_serves.does (.inl rfl) hpublish hserves)
      (ihpublish hfree hserves h)
  | crash hpublish ih => exact ih hfree hserves h

/-- A trade that the overseer cannot count changes nothing and reaches nobody else. -/
theorem Does.overflow_eq {o : Overseer} {bad : Decimal.Fault}
    (hdoes : Does allows inHand (.publish (.trade bot fill)) d e fault) (hserves : d.Serves)
    (ho : d.overseer = some o) (hbad : o.balance.add fill.balanceDelta = .error bad) :
    e = d.log (Event.trade bot fill).logLine ∧ fault = some bad := by
  have hcounts : (d.log (Event.trade bot fill).logLine).counts? (.trade bot fill) .overseer =
      some (.error bad) := by
    change (d.overseer.bind _) = _
    rw [ho]
    simp [Overseer.counts?, Overseer.onTrade_eq, Overseer.count, hbad]
    rfl
  obtain ⟨others, htrades, -⟩ := hserves
  cases hdoes with
  | publish htell =>
    change Does _ _ (.tell _ d.bus.trades) _ _ _ at htell
    rw [htrades] at htell
    cases htell with
    | tell hs hnone hleft => rw [hcounts] at hnone; cases hnone
    | count hok hobey hleft => rw [hcounts] at hok; cases hok
    | overflow hover =>
      rw [hcounts] at hover
      cases hover
      exact ⟨rfl, rfl⟩

theorem Does.carryOut_overflow {o : Overseer} {bad : Decimal.Fault} {notices : List Run.Notice}
    {others : List Event} (hdoes : Does allows inHand (.carryOut notices) d e fault)
    (hserves : d.Serves) (ho : d.overseer = some o)
    (hbad : o.balance.add fill.balanceDelta = .error bad)
    (hfirst : Run.announced notices = .trade bot fill :: others) :
    e.overseer = some o ∧ dues e.notes = dues d.notes ∧ fault = some bad := by
  -- Lines for the log may come before the trade, but no other event does.
  induction notices generalizing d with
  | nil => cases hfirst
  | cons notice notices ih =>
    cases notice with
    | log line =>
      cases hdoes with
      | line hcarry =>
        obtain ⟨hoverseer, hdues, hfault⟩ := ih hcarry hserves ho hfirst
        refine ⟨hoverseer, hdues.trans ?_, hfault⟩
        exact (dues_append _ _).trans (List.append_nil _)
    | publish event =>
      obtain ⟨rfl, -⟩ := List.cons.inj hfirst
      cases hdoes with
      | announce hpublish hcarry => cases (hpublish.overflow_eq hserves ho hbad).2
      | crash hpublish =>
        obtain ⟨rfl, hfault⟩ := hpublish.overflow_eq hserves ho hbad
        exact ⟨ho, (dues_append _ _).trans (List.append_nil _), hfault⟩

end Desk

end LaunchDesk
