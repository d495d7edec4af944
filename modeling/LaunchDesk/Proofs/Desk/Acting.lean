import LaunchDesk.Proofs.Desk.Waiting

/-!
# Subscribers that act

Whoever is told of an event may do more than listen. While they are called they may publish events
of their own, subscribe, give up subscriptions of their own, and ask something of the intake. `Does`
follows what is done at a desk whatever they do, the events within events included. Where nobody
acts it comes to what the desk does by itself. `Endures` says what it takes to outlast all of it.
-/

namespace LaunchDesk

/-- What the overseer makes of an event: how it goes on and what it wants then. It does not count
stop requests. -/
def Overseer.counts? (o : Overseer) :
    Event → Option (Except Decimal.Fault (Overseer × List Overseer.Reaction))
  | .trade bot fill => some (o.onTrade bot fill)
  | .cycle bot outcome => some (.ok (o.onCycle bot outcome))
  | .stop _ => none

/-- Nobody has this number but those who are free to act. -/
def Bus.IsTheirs (b : Bus Subscriber) (id : SubscriptionId) : Prop :=
  ∀ kind, ∀ e ∈ b.subscribed kind, e.1 = id → e.2 = .recorder

theorem Bus.IsTheirs.holds_eq_false {b : Bus Subscriber} {id : SubscriptionId} {kind : EventKind}
    {front others : List (SubscriptionId × Subscriber)} (h : b.IsTheirs id)
    (hlist : b.subscribed kind = front ++ others) (hfront : ∀ e ∈ front, e.2 ≠ .recorder) :
    Bus.holds id front = false := List.any_eq_false.mpr fun e he => by
  have hne : e.1 ≠ id := fun heq =>
    hfront e he (h kind e (hlist ▸ List.mem_append_left others he) heq)
  simpa using hne

namespace Desk

/-- What a subscriber makes of an event that may want something then. -/
def counts? (d : Desk) (event : Event) :
    Subscriber → Option (Except Decimal.Fault (Overseer × List Overseer.Reaction))
  | .overseer => d.overseer.bind (·.counts? event)
  | _ => none

/-- A subscriber is told of an event and wants nothing. -/
def tell (event : Event) (d : Desk) : Subscriber → Desk
  | .recorder => d.note (.recorded event)
  | .overseer =>
    match event with
    | .stop request => d.tellOverseer request
    | _ => d
  | .wallet =>
    match event with
    | .trade _ fill => d.note (.owed fill.balanceDelta)
    | _ => d
  | .run m bot =>
    match event with
    | .stop request => d.tellRun request m bot
    | _ => d

/-- Something that is done at a desk. -/
inductive Work
  | publish (event : Event)
  /-- Those who are left are told of an event, one after the other. -/
  | tell (event : Event) (left : List (SubscriptionId × Subscriber))
  /-- What the overseer wants is done. -/
  | obey (reactions : List Overseer.Reaction)
  /-- Someone who is free to act does so. -/
  | act
  | stopAll (reason : StopReason) (exclude : Option BotId)
  | carryOut (notices : List Run.Notice)

/-- Which events those who act may publish. The flag says whether the overseer has a trade in hand
at that time: it has counted it and is not done with it yet. -/
abbrev Customs : Type := Bool → Event → Prop

/-- Work that leads from one desk to another, and the overflow that has ended it, if one has. Those
who act let no overflow through. -/
inductive Does (allows : Customs) : Bool → Work → Desk → Desk → Option Decimal.Fault → Prop
  | publish {inHand : Bool} {event : Event} {d e : Desk} {fault : Option Decimal.Fault}
    (htell : Does allows inHand (.tell event (d.bus.subscribed event.kind))
      (d.log event.logLine) e fault) :
    Does allows inHand (.publish event) d e fault
  | told {inHand : Bool} {event : Event} {d : Desk} : Does allows inHand (.tell event []) d d none
  /-- Someone who has no say is told. -/
  | tell {inHand : Bool} {event : Event} {d e : Desk} {fault : Option Decimal.Fault}
    {id : SubscriptionId} {s : Subscriber} {left : List (SubscriptionId × Subscriber)}
    (hs : s ≠ .recorder) (hcounts : d.counts? event s = none)
    (hleft : Does allows inHand (.tell event left) (d.tell event s) e fault) :
    Does allows inHand (.tell event ((id, s) :: left)) d e fault
  /-- Someone is told who is free to act, and has done so before the next one is told. -/
  | call {inHand : Bool} {event : Event} {d e f : Desk} {fault : Option Decimal.Fault}
    {id : SubscriptionId} {left : List (SubscriptionId × Subscriber)}
    (hact : Does allows inHand .act (d.note (.recorded event)) e none)
    (hleft : Does allows inHand (.tell event left) e f fault) :
    Does allows inHand (.tell event ((id, .recorder) :: left)) d f fault
  | count {inHand : Bool} {event : Event} {d e f : Desk} {fault : Option Decimal.Fault}
    {id : SubscriptionId} {s : Subscriber} {left : List (SubscriptionId × Subscriber)}
    {next : Overseer × List Overseer.Reaction} (hcounts : d.counts? event s = some (.ok next))
    (hobey : Does allows (inHand || event.kind = .trade) (.obey next.2)
      { d with overseer := some next.1 } e none)
    (hleft : Does allows inHand (.tell event left) e f fault) :
    Does allows inHand (.tell event ((id, s) :: left)) d f fault
  /-- An overflow leaves out all who are left. -/
  | overflow {inHand : Bool} {event : Event} {d : Desk} {fault : Decimal.Fault}
    {id : SubscriptionId} {s : Subscriber} {left : List (SubscriptionId × Subscriber)}
    (hcounts : d.counts? event s = some (.error fault)) :
    Does allows inHand (.tell event ((id, s) :: left)) d d (some fault)
  | obeyed {inHand : Bool} {d : Desk} : Does allows inHand (.obey []) d d none
  | ask {inHand : Bool} {d e f : Desk} {request : StopRequest}
    {reactions : List Overseer.Reaction}
    (hpublish : Does allows inHand (.publish (.stop request)) d e none)
    (hobey : Does allows inHand (.obey reactions) e f none) :
    Does allows inHand (.obey (.request request :: reactions)) d f none
  | obey {inHand : Bool} {d e : Desk} {reaction : Overseer.Reaction}
    {reactions : List Overseer.Reaction} (hreaction : ∀ request, reaction ≠ .request request)
    (hobey : Does allows inHand (.obey reactions) (d.obey reaction) e none) :
    Does allows inHand (.obey (reaction :: reactions)) d e none
  | done {inHand : Bool} {d : Desk} : Does allows inHand .act d d none
  | say {inHand : Bool} {d e f : Desk} {event : Event} {fault : Option Decimal.Fault}
    (hallows : allows inHand event) (hpublish : Does allows inHand (.publish event) d e fault)
    (hact : Does allows inHand .act e f none) :
    Does allows inHand .act d f none
  | enlist {inHand : Bool} {d e : Desk} (kind : EventKind)
    (hact : Does allows inHand .act (d.subscribe kind .recorder).2 e none) :
    Does allows inHand .act d e none
  | withdraw {inHand : Bool} {d e : Desk} {id : SubscriptionId} (hid : d.bus.IsTheirs id)
    (hact : Does allows inHand .act (d.unsubscribe id) e none) :
    Does allows inHand .act d e none
  /-- The end of a task is nobody's to tell. -/
  | operate {inHand : Bool} {d e : Desk} {op : Intake.Operation}
    (hop : ∀ task ending, op ≠ .finish task ending)
    (hact : Does allows inHand .act (d.updateIntake (d.intake.perform op)) e none) :
    Does allows inHand .act d e none
  | stopAll {inHand : Bool} {d e : Desk} {reason : StopReason} {exclude : Option BotId}
    (hpublish : Does allows inHand (.publish (.stop (stopRequest reason exclude)))
      (d.log (stopLine reason exclude)) e none) :
    Does allows inHand (.stopAll reason exclude) d e none
  | carried {inHand : Bool} {d : Desk} : Does allows inHand (.carryOut []) d d none
  | line {inHand : Bool} {d e : Desk} {fault : Option Decimal.Fault} {line : Log.Line}
    {notices : List Run.Notice} (hcarry : Does allows inHand (.carryOut notices) (d.log line) e
      fault) :
    Does allows inHand (.carryOut (.log line :: notices)) d e fault
  | announce {inHand : Bool} {d e f : Desk} {fault : Option Decimal.Fault} {event : Event}
    {notices : List Run.Notice} (hpublish : Does allows inHand (.publish event) d e none)
    (hcarry : Does allows inHand (.carryOut notices) e f fault) :
    Does allows inHand (.carryOut (.publish event :: notices)) d f fault
  | crash {inHand : Bool} {d e : Desk} {fault : Decimal.Fault} {event : Event}
    {notices : List Run.Notice}
    (hpublish : Does allows inHand (.publish event) d e (some fault)) :
    Does allows inHand (.carryOut (.publish event :: notices)) d e (some fault)

variable {allows : Customs} {inHand : Bool} {d e f : Desk}

theorem counts?_none (ho : d.overseer = none) (event : Event) :
    d.counts? event .overseer = none := by
  change d.overseer.bind _ = none
  rw [ho, Option.bind_none]

theorem counts?_some {o : Overseer} (ho : d.overseer = some o) (event : Event) :
    d.counts? event .overseer = o.counts? event := by
  change d.overseer.bind _ = _
  rw [ho, Option.bind_some]

/-! ## Where nobody acts -/

theorem does_tellStops (request : StopRequest) (entries : List (SubscriptionId × Subscriber))
    (d : Desk) : Does allows inHand (.tell (.stop request) entries) d
      (entries.foldl (fun d e => tellStop request d e.2) d) none := by
  induction entries generalizing d with
  | nil => exact .told
  | cons entry entries ih =>
    obtain ⟨id, s⟩ := entry
    cases s with
    | recorder => exact .call .done (ih _)
    | overseer =>
      refine .tell (by simp) ?_ (ih _)
      cases ho : d.overseer with
      | none => exact counts?_none ho _
      | some o => exact counts?_some ho _
    | wallet => exact .tell (by simp) rfl (ih d)
    | run m bot => exact .tell (by simp) rfl (ih _)

theorem does_publishStop (d : Desk) (request : StopRequest) :
    Does allows inHand (.publish (.stop request)) d (d.publishStop request) none :=
  .publish (does_tellStops request d.bus.stops _)

theorem Does.append {event : Event} {fault : Option Decimal.Fault}
    {first rest : List (SubscriptionId × Subscriber)}
    (h : Does allows inHand (.tell event first) d e none)
    (hrest : Does allows inHand (.tell event rest) e f fault) :
    Does allows inHand (.tell event (first ++ rest)) d f fault := by
  induction first generalizing d with
  | nil =>
    cases h with
    | told => exact hrest
  | cons entry first ih =>
    cases h with
    | tell hs hcounts hleft => exact .tell hs hcounts (ih hleft)
    | call hact hleft => exact .call hact (ih hleft)
    | count hcounts hobey hleft => exact .count hcounts hobey (ih hleft)

theorem does_obey (reactions : List Overseer.Reaction) (d : Desk) :
    Does allows inHand (.obey reactions) d (reactions.foldl obey d) none := by
  induction reactions generalizing d with
  | nil => exact .obeyed
  | cons reaction reactions ih =>
    cases reaction with
    | request request => exact .ask (does_publishStop d request) (ih _)
    | log line => exact .obey nofun (ih _)
    | startIntake => exact .obey nofun (ih _)

theorem does_tellTrades (bot : BotId) (fill : Fill)
    (entries : List (SubscriptionId × Subscriber)) (d : Desk) :
    Does allows inHand (.tell (.trade bot fill) entries) d (tellTrades bot fill d entries).1
      (tellTrades bot fill d entries).2 := by
  induction entries generalizing d with
  | nil => exact .told
  | cons entry entries ih =>
    obtain ⟨id, s⟩ := entry
    cases s with
    | recorder => exact .call .done (ih _)
    | wallet => exact .tell (by simp) rfl (ih _)
    | run m b => exact .tell (by simp) rfl (ih d)
    | overseer =>
      cases ho : d.overseer with
      | none =>
        have htold : tellTrade bot fill d .overseer = .ok d := by rw [tellTrade, ho]
        rw [tellTrades, htold]
        exact .tell (by simp) (counts?_none ho _) (ih d)
      | some o =>
        have htold : tellTrade bot fill d .overseer = (o.onTrade bot fill).map d.consult := by
          rw [tellTrade, ho]
        have hcounts : d.counts? (.trade bot fill) .overseer = some (o.onTrade bot fill) :=
          counts?_some ho _
        rw [tellTrades, htold]
        cases hnext : o.onTrade bot fill with
        | error fault => exact .overflow (hcounts.trans (congrArg some hnext))
        | ok next =>
          exact .count (hcounts.trans (congrArg some hnext)) (does_obey next.2 _) (ih _)

theorem does_tellCycles (bot : BotId) (outcome : Outcome)
    (entries : List (SubscriptionId × Subscriber)) (d : Desk) :
    Does allows inHand (.tell (.cycle bot outcome) entries) d
      (entries.foldl (fun d e => tellCycle bot outcome d e.2) d) none := by
  induction entries generalizing d with
  | nil => exact .told
  | cons entry entries ih =>
    obtain ⟨id, s⟩ := entry
    rw [List.foldl_cons]
    cases s with
    | recorder => exact .call .done (ih _)
    | wallet => exact .tell (by simp) rfl (ih d)
    | run m b => exact .tell (by simp) rfl (ih d)
    | overseer =>
      cases ho : d.overseer with
      | none =>
        have htold : tellCycle bot outcome d .overseer = d := by rw [tellCycle, ho]
        rw [htold]
        exact .tell (by simp) (counts?_none ho _) (ih d)
      | some o =>
        have htold : tellCycle bot outcome d .overseer = d.consult (o.onCycle bot outcome) := by
          rw [tellCycle, ho]
        have hcounts : d.counts? (.cycle bot outcome) .overseer =
            some (.ok (o.onCycle bot outcome)) := counts?_some ho _
        rw [htold]
        exact .count hcounts (does_obey _ _) (ih _)

theorem does_publish (d : Desk) (event : Event) :
    Does allows inHand (.publish event) d (d.publish event).1 (d.publish event).2 := by
  cases event with
  | trade bot fill => exact .publish (does_tellTrades bot fill _ _)
  | cycle bot outcome => exact .publish (does_tellCycles bot outcome _ _)
  | stop request => exact does_publishStop d request

theorem does_stopAll (d : Desk) (reason : StopReason) (exclude : Option BotId) :
    Does allows inHand (.stopAll reason exclude) d (d.stopAll reason exclude) none :=
  .stopAll (does_publishStop _ _)

theorem does_carryOut (notices : List Run.Notice) (d : Desk) :
    Does allows inHand (.carryOut notices) d (d.carryOut notices).1 (d.carryOut notices).2 := by
  induction notices generalizing d with
  | nil => exact .carried
  | cons notice notices ih =>
    cases notice with
    | log line => exact .line (ih _)
    | publish event =>
      have hpublish : Does allows inHand (.publish event) d _ _ := does_publish d event
      simp only [carryOut]
      rcases heq : d.publish event with ⟨e, _ | fault⟩
      · rw [heq] at hpublish
        exact .announce hpublish (ih e)
      · rw [heq] at hpublish
        exact .crash hpublish

/-! ## What outlasts it -/

/-- `P` outlasts whatever is done, be it by those who act; the count of a trade only if there are
`trades`. -/
structure Endures (trades : Bool) (P : Desk → Prop) : Prop where
  note : ∀ {d} {n : Note}, n.isPlain = true → P d → P (d.note n)
  cancel : ∀ {d} (m : Nat), P d → P (d.updateMachine m fun s => { s with cancelled := true })
  oversee : ∀ {d} {o p : Overseer}, d.overseer = some o → p.balance = o.balance → P d →
    P { d with overseer := some p }
  operate : ∀ {d} (i : Intake), P d → P (d.updateIntake i)
  enlist : ∀ {d} (kind : EventKind), P d → P (d.subscribe kind .recorder).2
  withdraw : ∀ {d} {id : SubscriptionId}, d.bus.IsTheirs id → P d → P (d.unsubscribe id)
  count : ∀ {d} {o p : Overseer}, trades = true → d.overseer = some o → P d →
    P { d with overseer := some p }
  owed : ∀ {d} (amount : Decimal), trades = true → P d → P (d.note (.owed amount))

/-- No trade is part of the work as it is given. -/
def Work.IsCalm : Work → Prop
  | .publish event => event.kind ≠ .trade
  | .tell event _ => event.kind ≠ .trade
  | .carryOut notices => ∀ event ∈ Run.announced notices, event.kind ≠ .trade
  | _ => True

namespace Endures

variable {trades : Bool} {P : Desk → Prop} {event : Event} (h : Endures trades P)
include h

theorem log (line : Log.Line) (hd : P d) : P (d.log line) := h.note rfl hd

theorem tell {s : Subscriber} (htrades : trades = true ∨ event.kind ≠ .trade) (hd : P d) :
    P (d.tell event s) := by
  cases s with
  | recorder => exact h.note rfl hd
  | wallet =>
    cases event with
    | trade bot fill => exact h.owed _ (htrades.resolve_right (absurd rfl)) hd
    | cycle bot outcome => exact hd
    | stop request => exact hd
  | run m bot =>
    cases event with
    | stop request =>
      simp only [Desk.tell, tellRun]
      split
      · exact h.log _ (h.cancel m hd)
      · exact hd
    | trade bot fill => exact hd
    | cycle bot outcome => exact hd
  | overseer =>
    cases event with
    | stop request =>
      simp only [Desk.tell, tellOverseer]
      split
      · exact hd
      · next o ho =>
        have hbalance := congrArg Ledger.balance (Overseer.onStop_ledger o request)
        exact h.operate _ (h.log _ (h.oversee ho hbalance hd))
    | trade bot fill => exact hd
    | cycle bot outcome => exact hd

theorem count_event {s : Subscriber} {next : Overseer × List Overseer.Reaction}
    (htrades : trades = true ∨ event.kind ≠ .trade)
    (hcounts : d.counts? event s = some (.ok next)) (hd : P d) :
    P { d with overseer := some next.1 } := by
  cases s with
  | overseer =>
    obtain ⟨o, ho, hnext⟩ := Option.bind_eq_some_iff.mp hcounts
    cases event with
    | trade bot fill => exact h.count (htrades.resolve_right (absurd rfl)) ho hd
    | cycle bot outcome =>
      obtain rfl := Except.ok.inj (Option.some.inj hnext)
      exact h.oversee ho rfl hd
    | stop request => cases hnext
  | recorder => cases hcounts
  | wallet => cases hcounts
  | run m bot => cases hcounts

theorem obey {reaction : Overseer.Reaction} (hreaction : ∀ request, reaction ≠ .request request)
    (hd : P d) : P (d.obey reaction) := by
  cases reaction with
  | request request => exact absurd rfl (hreaction request)
  | log line => exact h.log line hd
  | startIntake =>
    have hstarted := h.operate (d.intake.start true).1 hd
    simp only [Desk.obey]
    generalize d.intake.start true = p at hstarted
    obtain ⟨i, _ | fault⟩ := p
    · exact hstarted
    · exact h.log _ hstarted

/-- What endures is kept by all that is done. Without the count of trades it is kept as long as
nobody may publish one: while the overseer has a trade in hand, if those who act leave it alone. -/
theorem does {work : Work} {fault : Option Decimal.Fault}
    (htrades : trades = true ∨
      inHand = true ∧ (∀ bot fill, ¬ allows true (.trade bot fill)) ∧ work.IsCalm)
    (hdoes : Does allows inHand work d e fault) (hd : P d) : P e := by
  -- By induction on what is done. That the work is calm is handed down to each part of it, except
  -- to the acts of others: there it follows from what they are allowed.
  induction hdoes with
  | publish htell ih => exact ih htrades (h.log _ hd)
  | told => exact hd
  | tell hs hcounts hleft ih =>
    exact ih htrades (h.tell (htrades.imp_right fun hcalm => hcalm.2.2) hd)
  | call hact hleft ihact ihleft =>
    exact ihleft htrades
      (ihact (htrades.imp_right fun hcalm => ⟨hcalm.1, hcalm.2.1, trivial⟩) (h.note rfl hd))
  | count hcounts hobey hleft ihobey ihleft =>
    refine ihleft htrades (ihobey ?_ (h.count_event (htrades.imp_right fun hcalm => hcalm.2.2)
      hcounts hd))
    exact htrades.imp_right fun hcalm => ⟨by rw [hcalm.1]; rfl, hcalm.2.1, trivial⟩
  | overflow hcounts => exact hd
  | obeyed => exact hd
  | ask hpublish hobey ihpublish ihobey =>
    exact ihobey htrades
      (ihpublish (htrades.imp_right fun hcalm => ⟨hcalm.1, hcalm.2.1, nofun⟩) hd)
  | obey hreaction hobey ih => exact ih htrades (h.obey hreaction hd)
  | done => exact hd
  | say hallows hpublish hact ihpublish ihact =>
    refine ihact htrades (ihpublish (htrades.imp_right fun hcalm => ⟨hcalm.1, hcalm.2.1, ?_⟩) hd)
    obtain ⟨rfl, hnone, -⟩ := hcalm
    next event _ =>
    cases event with
    | trade bot fill => exact absurd hallows (hnone bot fill)
    | _ => nofun
  | enlist kind hact ih => exact ih htrades (h.enlist kind hd)
  | withdraw hid hact ih => exact ih htrades (h.withdraw hid hd)
  | operate hop hact ih => exact ih htrades (h.operate _ hd)
  | stopAll hpublish ih =>
    exact ih (htrades.imp_right fun hcalm => ⟨hcalm.1, hcalm.2.1, nofun⟩) (h.log _ hd)
  | carried => exact hd
  | line hcarry ih => exact ih htrades (h.log _ hd)
  | announce hpublish hcarry ihpublish ihcarry =>
    refine ihcarry (htrades.imp_right fun hcalm => ⟨hcalm.1, hcalm.2.1, ?_⟩)
      (ihpublish (htrades.imp_right fun hcalm => ⟨hcalm.1, hcalm.2.1, ?_⟩) hd)
    · exact fun event hevent => hcalm.2.2 event (List.mem_cons_of_mem _ hevent)
    · exact hcalm.2.2 _ List.mem_cons_self
  | crash hpublish ih =>
    refine ih (htrades.imp_right fun hcalm => ⟨hcalm.1, hcalm.2.1, ?_⟩) hd
    exact hcalm.2.2 _ List.mem_cons_self

end Endures

end Desk

end LaunchDesk
