import LaunchDesk.Proofs.Desk.Acting
import LaunchDesk.Proofs.Session.Turns

/-!
# Turns whoever acts

Others who are subscribed may act when they are told of something, and anyone may act between two
turns. `Takes` is a turn in their company: it comes to `take` if they only listen. What runs publish
at the end, and what the overseer asks for then, is told them as well.
-/

namespace LaunchDesk

namespace Session.Booked

variable {simulate : Bool} {b : Bus Subscriber} {seats : List Seat}

theorem withdraw {id : SubscriptionId} (h : Booked simulate b seats) (hid : b.IsTheirs id) :
    Booked simulate (b.unsubscribe id).2 seats := by
  obtain ⟨trades, htrades, htold⟩ := h.trades
  obtain ⟨cycles, hcycles, hcounted⟩ := h.cycles
  obtain ⟨stops, hstops, hasked⟩ := h.stops
  have hsubset : ∀ kind, ∀ e ∈ (b.unsubscribe id).2.subscribed kind, e ∈ b.subscribed kind :=
    fun kind e he => (Bus.subscribed_unsubscribe b id kind).subset he
  -- Whoever has a fixed place in front of a list keeps it.
  have hfront : ∀ (kind : EventKind) (front : List (SubscriptionId × Subscriber)) {others},
      b.subscribed kind = front ++ others → (∀ e ∈ front, e.2 ≠ .recorder) →
      ∃ rest, (b.unsubscribe id).2.subscribed kind = front ++ rest ∧ ∀ e ∈ rest, e ∈ others :=
    fun kind front _ hlist hfixed =>
      Bus.subscribed_unsubscribe_append hlist (hid.holds_eq_false hlist hfixed)
  obtain ⟨trades', htrades', hin⟩ := hfront .trade (_ :: walletEntries simulate) htrades (by
    cases simulate <;> simp [walletEntries])
  obtain ⟨cycles', hcycles', hin'⟩ := hfront .cycle [(2, .overseer)] hcycles (by simp)
  obtain ⟨stops', hstops', hin''⟩ := hfront .stop [(3, .overseer)] hstops (by simp)
  refine ⟨⟨trades', htrades', fun e he => htold e (hin e he)⟩,
    ⟨cycles', hcycles', fun e he => hcounted e (hin' e he)⟩,
    ⟨stops', hstops', fun e he => hasked e (hin'' e he)⟩, ?_, ?_⟩
  · intro kind e he
    rw [Bus.next_unsubscribe]
    exact h.numbered kind e (hsubset kind e he)
  · intro run hrun
    obtain ⟨hlow, hlt, htrade, hcycle⟩ := h.working run hrun
    rw [Bus.next_unsubscribe]
    refine ⟨hlow, hlt, ?_, ?_⟩
    · exact List.any_eq_false.mpr fun e he => List.any_eq_false.mp htrade e (hsubset .trade e he)
    · exact List.any_eq_false.mpr fun e he => List.any_eq_false.mp hcycle e (hsubset .cycle e he)

end Session.Booked

namespace Desk

/-- Whoever acts leaves all subscriptions but their own alone. -/
theorem endures_booked (notes : List Note) (simulate : Bool) (seats : List Session.Seat) :
    Endures true fun d => notes <+: d.notes ∧ Session.Booked simulate d.bus seats where
  note := fun _ h => ⟨h.1.trans (List.prefix_append _ _), h.2⟩
  cancel := fun _ h => h
  oversee := fun _ _ h => h
  operate := by
    intro d i h
    obtain ⟨-, -, hbus, hnotes⟩ := updateIntake_eq d i
    rw [hbus, hnotes]
    exact ⟨h.1.trans (List.prefix_append _ _), h.2⟩
  enlist := fun kind h => ⟨h.1, h.2.enlist kind⟩
  withdraw := fun hid h => ⟨h.1, h.2.withdraw hid⟩
  count := fun _ _ h => h
  owed := fun _ _ h => ⟨h.1.trans (List.prefix_append _ _), h.2⟩

theorem endures_notes (notes : List Note) : Endures true fun d => notes <+: d.notes where
  note := fun _ h => h.trans (List.prefix_append _ _)
  cancel := fun _ h => h
  oversee := fun _ _ h => h
  operate := by
    intro d i h
    rw [(updateIntake_eq d i).2.2.2]
    exact h.trans (List.prefix_append _ _)
  enlist := fun _ h => h
  withdraw := fun _ h => h
  count := fun _ _ h => h
  owed := fun _ _ h => h.trans (List.prefix_append _ _)

end Desk

namespace Session

open Desk (Customs Does Endures)

variable {allows : Customs} {s v w : Session} {d e f : Desk} {t : Trader} {k : Nat}
variable {p : Run.Progress} {ending : Intake.Ending} {turn : Turn} {turns : List Turn}

/-! ## The end of a run -/

/-- A run has ended for lack of funds, and there is an overseer to stop the others. -/
def StopsOthers (d : Desk) (t : Trader) : Prop :=
  d.overseer.isSome = true ∧ ∃ fault, t.run.phase = .ended (.error fault) ∧
    fault.fatalKind? = some .insufficientFunds

/-- What follows from the end of a run. -/
inductive Concludes (allows : Customs) (d : Desk) (t : Trader) : Desk → Intake.Ending → Prop
  | alone {e : Desk} {ending : Intake.Ending} (hothers : ¬ StopsOthers d t)
    (hconclude : conclude d t = some (e, ending)) : Concludes allows d t e ending
  | stopping {e f : Desk} {ending : Intake.Ending} (hothers : StopsOthers d t)
    (hconclude : conclude d t = some (e, ending))
    (hstop : Does allows false (.stopAll .insufficientFunds (some t.plan.botId)) d f none) :
    Concludes allows d t f ending

/-- A run goes on: what it wants is carried out, and then it asks for something or is over. -/
inductive Proceeds (allows : Customs) (s : Session) (k : Nat) (d : Desk) (t : Trader)
    (p : Run.Progress) : Session → Prop
  | asks {e f : Desk} {u : Trader} {fault : Option Decimal.Fault}
    (hcarry : Does allows false (.carryOut p.2) d e fault)
    (hgoes : e.goOn k t (fault.elim p.1 p.1.crash) = (f, u)) (hconclude : conclude f u = none) :
    Proceeds allows s k d t p ((s.settle f).setSeat k (.working u))
  | ends {e f g : Desk} {u : Trader} {fault : Option Decimal.Fault} {ending : Intake.Ending}
    (hcarry : Does allows false (.carryOut p.2) d e fault)
    (hgoes : e.goOn k t (fault.elim p.1 p.1.crash) = (f, u))
    (hconclude : Concludes allows f u g ending) :
    Proceeds allows s k d t p ((s.settle (g.note (.ended k))).setSeat k (.leaving ending))

/-- Nobody is told of anything in a turn. A run that begins publishes nothing yet. -/
def IsSilent (s : Session) : Turn → Prop
  | .publish _ => False
  | .move (.reply _ k _) => ∀ t, s.seats[k]? ≠ some (.working t)
  | .move .beginShutdown => False
  | _ => True

/-- A turn, whoever acts meanwhile. -/
inductive Takes (allows : Customs) (s : Session) : Turn → Session → Prop
  | silent {turn : Turn} (hsilent : s.IsSilent turn) : Takes allows s turn (s.take turn)
  | publish {event : Event} {e : Desk} {fault : Option Decimal.Fault}
    (hpublish : Does allows false (.publish event) s.desk e fault) :
    Takes allows s (.publish event) (s.settle e)
  | reply {now : Moment} {k : Nat} {reply : Reply} {t : Trader} {v : Session}
    (hk : s.seats[k]? = some (.working t))
    (hproceeds : Proceeds allows s k s.desk t
      (t.run.resume t.plan (s.desk.machines t.machine).cancelled now reply) v) :
    Takes allows s (.move (.reply now k reply)) v
  | shutdown {e : Desk} (hstop : Does allows false (.stopAll .shutdown none) s.desk e none) :
    Takes allows s (.move .beginShutdown) ((s.settle e).wait .idle)

/-- Any number of turns, and whatever is done between them. -/
inductive Plays (allows : Customs) (s : Session) : List Turn → Session → Prop
  | start : Plays allows s [] s
  | turn {turns : List Turn} {turn : Turn} {v w : Session} (hplays : Plays allows s turns v)
    (htakes : Takes allows v turn w) : Plays allows s (turns ++ [turn]) w
  | act {turns : List Turn} {v : Session} {e : Desk} (hplays : Plays allows s turns v)
    (hact : Does allows false .act v.desk e none) : Plays allows s turns (v.settle e)

/-! ## Where nobody acts -/

theorem concludes_conclude (hconclude : conclude d t = some (e, ending)) :
    Concludes allows d t e ending := by
  by_cases hothers : StopsOthers d t
  · refine .stopping hothers hconclude ?_
    obtain ⟨hoverseer, fault, hphase, hfunds⟩ := hothers
    simp only [conclude, hphase, hfunds, if_true, stopOthers, hoverseer] at hconclude
    cases hconclude
    exact Desk.does_stopAll d _ _
  · exact .alone hothers hconclude

theorem proceeds_proceed (s : Session) (k : Nat) (d : Desk) (t : Trader) (p : Run.Progress) :
    Proceeds allows s k d t p (s.proceed k (d.proceed k t p).1 (d.proceed k t p).2) := by
  have hcarry : Does allows false (.carryOut p.2) d _ _ := Desk.does_carryOut p.2 d
  unfold Session.proceed
  split
  · next hconclude => exact .asks hcarry rfl hconclude
  · next hconclude => exact .ends hcarry rfl (concludes_conclude hconclude)

theorem proceeds_beginning (s : Session) (now : Moment) (k : Nat) (opportunity : Opportunity) :
    Proceeds allows s k ((s.heralded k opportunity).manned k (s.plan k opportunity).botId)
      (s.newcomer now k opportunity)
      ((s.heralded k opportunity).begun k (s.plan k opportunity) now)
      (s.proceed k (s.beginning now k opportunity).1 (s.beginning now k opportunity).2) :=
  proceeds_proceed s k _ _ _

theorem takes_take (s : Session) (turn : Turn) : Takes allows s turn (s.take turn) := by
  cases turn with
  | publish event => exact .publish (Desk.does_publish s.desk event)
  | move move =>
    cases move with
    | reply now k reply =>
      by_cases hk : ∃ t, s.seats[k]? = some (.working t)
      · obtain ⟨t, hk⟩ := hk
        have hreply : s.take (.move (.reply now k reply)) = s.proceed k
            (s.desk.resume k t now reply).1 (s.desk.resume k t now reply).2 := by
          simp only [take, after, Session.reply, hk]
        rw [hreply]
        exact .reply hk (proceeds_proceed s k s.desk t _)
      · exact .silent fun t hworking => hk ⟨t, hworking⟩
    | beginShutdown => exact .shutdown (Desk.does_stopAll s.desk _ _)
    | _ => exact .silent trivial
  | _ => exact .silent trivial

theorem plays_foldl_take (s : Session) (turns : List Turn) :
    Plays allows s turns (turns.foldl take s) := by
  induction turns using List.reverseRecOn with
  | nil => exact .start
  | append_singleton turns turn ih =>
    rw [List.foldl_concat]
    exact .turn ih (takes_take _ turn)

/-! ## What they keep -/

theorem conclude_alone (hothers : ¬ StopsOthers d t)
    (hconclude : conclude d t = some (e, ending)) : e = d ∨ ∃ line, e = d.log line := by
  unfold conclude at hconclude
  split at hconclude
  · cases hconclude
    exact .inr ⟨_, rfl⟩
  · next fault hphase =>
    cases hconclude
    split
    · next hfunds =>
      unfold stopOthers
      split
      · next hoverseer => exact absurd ⟨hoverseer, fault, hphase, hfunds⟩ hothers
      · exact .inr ⟨_, rfl⟩
    · exact .inl rfl
  · cases hconclude
    exact .inl rfl
  · cases hconclude

theorem Concludes.endures {P : Desk → Prop} (h : Concludes allows d t e ending)
    (hP : Endures true P) (hd : P d) : P e := by
  cases h with
  | alone hothers hconclude =>
    obtain rfl | ⟨line, rfl⟩ := conclude_alone hothers hconclude
    · exact hd
    · exact hP.log line hd
  | stopping hothers hconclude hstop => exact hP.does (.inl rfl) hstop hd

theorem goOn_cases {run : Run} {u : Trader} (hgoes : d.goOn k t run = (e, u)) :
    u = { t with run := run } ∧
      ((∃ request, u.run.request? u.plan = some request ∧ e = d.note (.asked k request)) ∨
        u.run.request? u.plan = none ∧ e = d.leave t) := by
  unfold Desk.goOn at hgoes
  simp only at hgoes
  split at hgoes
  · next request hrequest =>
    cases hgoes
    exact ⟨rfl, .inl ⟨request, hrequest, rfl⟩⟩
  · next hrequest =>
    cases hgoes
    exact ⟨rfl, .inr ⟨hrequest, rfl⟩⟩

theorem Concludes.conclude_isSome (h : Concludes allows d t e ending) :
    (conclude d t).isSome = true := by
  cases h with
  | alone hothers hconclude => exact Option.isSome_of_eq_some hconclude
  | stopping hothers hconclude hstop => exact Option.isSome_of_eq_some hconclude

/-- A run that goes on asks for something from its seat, or leaves its machine and its seat. -/
theorem Proceeds.cases (h : Proceeds allows s k d t p v) :
    ∃ e fault, Does allows false (.carryOut p.2) d e fault ∧
      let u := { t with run := fault.elim p.1 p.1.crash }
      (∃ request, v = (s.settle (e.note (.asked k request))).setSeat k (.working u)) ∨
        ∃ g ending, Concludes allows (e.leave t) u g ending ∧
          v = (s.settle (g.note (.ended k))).setSeat k (.leaving ending) := by
  cases h with
  | asks hcarry hgoes hconclude =>
    refine ⟨_, _, hcarry, ?_⟩
    obtain ⟨rfl, ⟨request, -, rfl⟩ | ⟨hrequest, rfl⟩⟩ := goOn_cases hgoes
    · exact .inl ⟨request, rfl⟩
    · obtain ⟨f, ending, hsome⟩ := conclude_of_no_request (Desk.leave _ t) hrequest
      rw [hconclude] at hsome
      cases hsome
  | ends hcarry hgoes hconclude =>
    refine ⟨_, _, hcarry, ?_⟩
    obtain ⟨rfl, ⟨request, hrequest, rfl⟩ | ⟨-, rfl⟩⟩ := goOn_cases hgoes
    · have hsome := hconclude.conclude_isSome
      rw [conclude_of_request _ hrequest] at hsome
      cases hsome
    · exact .inr ⟨_, _, hconclude, rfl⟩

theorem IsBooked.does {work : Desk.Work} {fault : Option Decimal.Fault} (h : s.IsBooked)
    (hdoes : Does allows false work s.desk e fault) : (s.settle e).IsBooked := by
  obtain ⟨hnotes, hbooked⟩ := (Desk.endures_booked s.desk.notes _ s.seats).does (.inl rfl) hdoes
    ⟨List.prefix_rfl, h⟩
  exact keeps_booked.settle hnotes hbooked

theorem Proceeds.isBooked (hproceeds : Proceeds allows s k s.desk t p v)
    (hk : s.seats[k]? = some (.working t)) (h : s.IsBooked) : v.IsBooked := by
  obtain ⟨e, fault, hcarry, hcases⟩ := hproceeds.cases
  obtain ⟨hnotes, hbooked⟩ := (Desk.endures_booked s.desk.notes _ s.seats).does (.inl rfl) hcarry
    ⟨List.prefix_rfl, h⟩
  rcases hcases with ⟨request, rfl⟩ | ⟨g, ending, hconcludes, rfl⟩
  · refine keeps_booked.settle_set (hnotes.trans (List.prefix_append _ _)) hk ?_
    exact hbooked.of_subscriptions (subscriptions_set hk rfl)
  · obtain ⟨hnotes', hbooked'⟩ := hconcludes.endures
      (Desk.endures_booked s.desk.notes _ (s.seats.set k (.leaving ending)))
      ⟨hnotes, hbooked.leave hk rfl⟩
    exact keeps_booked.settle_set (hnotes'.trans (List.prefix_append _ _)) hk hbooked'

/-- Whoever acts, every turn keeps the subscriptions in order, unless the session is let go. -/
theorem Takes.isBooked (htakes : Takes allows s turn v) (hturn : turn ≠ .letGo)
    (h : s.IsBooked) : v.IsBooked := by
  cases htakes with
  | silent hsilent => exact h.take hturn
  | publish hpublish => exact h.does hpublish
  | reply hk hproceeds => exact hproceeds.isBooked hk h
  | shutdown hstop => exact h.does hstop

/-! ## Changes that are still to be made -/

/-- `v` comes from `s` without a change of the wallet; what was noted meanwhile is owed. -/
structure Carries (s v : Session) : Prop where
  setup : v.setup = s.setup
  held : v.held = s.held
  wallet : v.wallet = s.wallet
  owed : ∃ more, v.desk.notes = s.desk.notes ++ more ∧ v.owed = s.owed ++ Desk.dues more

theorem carries_desk (h : e.notes = s.desk.notes) : Carries s { s with desk := e } :=
  ⟨rfl, rfl, rfl, [], h.trans (List.append_nil _).symm, (List.append_nil _).symm⟩

theorem carries_settle (h : s.desk.notes <+: e.notes) : Carries s (s.settle e) := by
  obtain ⟨more, hmore⟩ := h
  rw [settle_eq s hmore.symm]
  exact ⟨rfl, rfl, rfl, more, hmore.symm, rfl⟩

theorem carries_does {work : Desk.Work} {fault : Option Decimal.Fault}
    (hdoes : Does allows false work s.desk e fault) : Carries s (s.settle e) :=
  carries_settle ((Desk.endures_notes s.desk.notes).does (.inl rfl) hdoes List.prefix_rfl)

theorem Carries.setSeat (h : Carries s v) (k : Nat) (seat : Seat) : Carries s (v.setSeat k seat) :=
  ⟨h.setup, h.held, h.wallet, h.owed⟩

theorem Proceeds.carries (hproceeds : Proceeds allows s k d t p v)
    (hnotes : s.desk.notes <+: d.notes) : Carries s v := by
  obtain ⟨e, fault, hcarry, hcases⟩ := hproceeds.cases
  have hcarried := (Desk.endures_notes s.desk.notes).does (.inl rfl) hcarry hnotes
  rcases hcases with ⟨request, rfl⟩ | ⟨g, ending, hconcludes, rfl⟩
  · exact (carries_settle (hcarried.trans (List.prefix_append _ _))).setSeat k _
  · have hconcluded := hconcludes.endures (Desk.endures_notes s.desk.notes) hcarried
    exact (carries_settle (hconcluded.trans (List.prefix_append _ _))).setSeat k _

theorem Takes.carries (htakes : Takes allows s turn v) (hturn : turn ≠ .letGo)
    (hpay : ∀ i, turn ≠ .move (.pay i)) : Carries s v := by
  -- What is done at the desk only adds to its notes, and `settle` makes dues of what was added.
  cases htakes with
  | publish hpublish => exact carries_does hpublish
  | reply hk hproceeds => exact hproceeds.carries List.prefix_rfl
  | shutdown hstop =>
    have hsettled := carries_does hstop
    exact ⟨hsettled.setup, hsettled.held, hsettled.wallet, hsettled.owed⟩
  | silent hsilent =>
    have hrefl := Desk.Upholds.refl s.desk
    have hbecomes := becomes_take s turn
    generalize s.take turn = v at hbecomes ⊢
    cases hbecomes with
    | idle => exact carries_desk rfl
    | @operates move op hop => exact carries_settle (hrefl.updateIntake op).notes
    | prepares change hchange => exact carries_desk rfl
    | @begins now k opportunity hk hstart =>
      have hproceeds : Proceeds allows s k _ _ _ _ := proceeds_beginning s now k opportunity
      exact hproceeds.carries (List.prefix_append _ _)
    | @refuses now k opportunity ending hk =>
      exact (carries_settle ((List.prefix_append _ _).trans (List.prefix_append _ _))).setSeat k _
    | replies hk => exact absurd hk (hsilent _)
    | @vacates k ending hk =>
      exact (carries_settle (hrefl.updateIntake (.finish k ending)).notes).setSeat k _
    | @pays i => exact absurd rfl (hpay i)
    | waits goal => exact carries_desk rfl
    | shutsDown => exact hsilent.elim
    | hasShutDown line => exact ⟨rfl, rfl, rfl, [.log line], rfl, (List.append_nil _).symm⟩
    | publishes event => exact hsilent.elim
    | enlists kind => exact carries_desk rfl
    | looks waiter => exact carries_desk rfl
    | letsGo => exact absurd rfl hturn

theorem Takes.eq_letGo (h : Takes allows s .letGo v) : v = s.letGo := by
  cases h with
  | silent hsilent => rfl

theorem Takes.eq_pay {i : Nat} (h : Takes allows s (.move (.pay i)) v) : v = s.pay i := by
  cases h with
  | silent hsilent => rfl

/-- Nobody changes how a session is set up, and only who has it lets it go. -/
theorem Takes.house (h : Takes allows s turn v) :
    v.setup = s.setup ∧ (turn ≠ .letGo → v.held = s.held) := by
  by_cases hturn : turn = .letGo
  · subst hturn
    rw [h.eq_letGo]
    exact ⟨rfl, fun h => absurd rfl h⟩
  by_cases hpay : ∃ i, turn = .move (.pay i)
  · obtain ⟨i, rfl⟩ := hpay
    obtain ⟨owed, wallet, d, -, hpay⟩ := pay_eq s i
    rw [h.eq_pay, hpay]
    exact ⟨rfl, fun _ => rfl⟩
  · have hcarries := h.carries hturn fun i heq => hpay ⟨i, heq⟩
    exact ⟨hcarries.setup, fun _ => hcarries.held⟩

theorem house_take (s : Session) (turn : Turn) :
    (s.take turn).setup = s.setup ∧ (turn ≠ .letGo → (s.take turn).held = s.held) :=
  (takes_take s turn : Takes (fun _ _ => False) s turn _).house

end Session

end LaunchDesk
