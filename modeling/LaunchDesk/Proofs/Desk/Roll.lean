import LaunchDesk.Proofs.Bus
import LaunchDesk.Proofs.Desk.Requests
import LaunchDesk.Proofs.Desk.Waiting
import Mathlib.Data.List.Nodup

/-!
# The roll of a desk

The runs that are subscribed to stop requests are on the roll: each has its number, its machine and
its bot. A run is entered when it begins and struck off when it leaves; nothing else that is done at
a desk changes the roll.
-/

namespace LaunchDesk

namespace Bus

/-- The runs that are subscribed to stop requests are those on the roll. -/
structure Enrols (b : Bus Subscriber) (roll : SubscriptionId → Nat → BotId → Prop) : Prop where
  ordered : b.Ordered
  listed : ∀ id m bot, (id, .run m bot) ∈ b.stops ↔ roll id m bot

namespace Enrols

variable {b : Bus Subscriber} {roll other : SubscriptionId → Nat → BotId → Prop}
variable {id : SubscriptionId} {m : Nat} {bot : BotId}

theorem congr (h : b.Enrols roll) (hsame : ∀ id m bot, roll id m bot ↔ other id m bot) :
    b.Enrols other := ⟨h.ordered, fun id m bot => (h.listed id m bot).trans (hsame id m bot)⟩

theorem lt_next (h : b.Enrols roll) (hroll : roll id m bot) : id < b.next :=
  h.ordered.numbered .stop _ ((h.listed id m bot).mpr hroll)

theorem entry_eq (h : b.Enrols roll) (hroll : roll id m bot) {e : SubscriptionId × Subscriber}
    (he : e ∈ b.stops) (hid : e.1 = id) : e = (id, .run m bot) := by
  have hnodup : (b.stops.map Prod.fst).Nodup :=
    (List.pairwise_map.mpr (h.ordered.sorted .stop)).imp Nat.ne_of_lt
  exact List.inj_on_of_nodup_map hnodup he ((h.listed id m bot).mpr hroll) hid

theorem stop_only (h : b.Enrols roll) (hroll : roll id m bot) :
    holds id b.trades = false ∧ holds id b.cycles = false := by
  have hmem := (h.listed id m bot).mpr hroll
  constructor
  · refine List.any_eq_false.mpr fun e he heq => ?_
    exact nomatch h.ordered.apart .trade .stop e _ he hmem (beq_iff_eq.mp heq)
  · refine List.any_eq_false.mpr fun e he heq => ?_
    exact nomatch h.ordered.apart .cycle .stop e _ he hmem (beq_iff_eq.mp heq)

theorem subscribe (h : b.Enrols roll) (kind : EventKind) {s : Subscriber}
    (hs : ∀ m bot, s ≠ .run m bot) : (b.subscribe kind s).2.Enrols roll where
  ordered := h.ordered.subscribe kind s
  listed id m bot := by
    rw [← h.listed]
    change _ ∈ (b.subscribe kind s).2.subscribed .stop ↔ _
    rw [subscribed_subscribe]
    split
    · simp [subscribed, Ne.symm (hs m bot)]
    · rw [List.append_nil]
      rfl

/-- A run begins, on the next number. -/
theorem enter (h : b.Enrols roll) (m : Nat) (bot : BotId) :
    (b.subscribe .stop (.run m bot)).2.Enrols fun id m' bot' =>
      roll id m' bot' ∨ id = b.next ∧ m' = m ∧ bot' = bot where
  ordered := h.ordered.subscribe .stop _
  listed id m' bot' := by
    rw [← h.listed]
    change _ ∈ b.stops ++ [_] ↔ _
    simp

theorem strike (h : b.Enrols roll) (hroll : roll id m bot) :
    (b.unsubscribe id).2.Enrols fun id' m' bot' => roll id' m' bot' ∧ id' ≠ id where
  ordered := h.ordered.unsubscribe id
  listed id' m' bot' := by
    obtain ⟨htrades, hcycles⟩ := h.stop_only hroll
    rw [unsubscribe_stops htrades hcycles, without, List.mem_filter, h.listed]
    exact and_congr_right fun _ => bne_iff_ne

end Enrols

end Bus

namespace Desk

variable {d e : Desk} {who m : Nat} {plan : Plan} {now : Moment} {t : Trader}

/-! ## Runs that begin, go on and leave -/

theorem bus_carryOut (d : Desk) (notices : List Run.Notice) :
    (d.carryOut notices).1.bus = d.bus :=
  ((lasting_upholds d).carryOut notices (.refl d)).bus

theorem proceed_cases (d : Desk) (who : Nat) (t : Trader) (next : Run.Progress) :
    let u := (d.proceed who t next).2
    (u.run.isOver = false ∧ ∃ request, u.run.request? u.plan = some request ∧
      (d.proceed who t next).1 = (d.carryOut next.2).1.note (.asked who request)) ∨
    u.run.isOver = true ∧ (d.proceed who t next).1 = (d.carryOut next.2).1.leave t := by
  intro u
  rcases hcarried : d.carryOut next.2 with ⟨e, fault⟩
  have hu : u = { t with run := fault.elim next.1 next.1.crash } := by
    have := proceed_trader d who t next
    rwa [hcarried] at this
  have hover := Run.isOver_iff u.plan u.run
  cases hrequest : u.run.request? u.plan with
  | some request =>
    rw [hrequest] at hover
    refine .inl ⟨by simpa using hover, request, rfl, ?_⟩
    rw [hu] at hrequest
    simp only [proceed, goOn, hcarried, hrequest]
  | none =>
    rw [hrequest] at hover
    refine .inr ⟨hover.mpr rfl, ?_⟩
    rw [hu] at hrequest
    simp only [proceed, goOn, hcarried, hrequest]
    rfl

theorem cancelled_manned (d : Desk) (m : Nat) (bot : BotId) (k : Nat) :
    ((d.manned m bot).machines k).cancelled = (d.machines k).cancelled := by
  simp only [manned, updateMachine, subscribe]
  split
  · next hk => rw [hk]
  · rfl

theorem cancelled_leave (d : Desk) (t : Trader) (k : Nat) :
    ((d.leave t).machines k).cancelled = (d.machines k).cancelled := by
  simp only [leave, updateMachine]
  split
  · next hk => rw [hk]; rfl
  · rfl

theorem start?_spec (h : d.start? who m plan now = some (e, t)) :
    let begun := Run.start plan (d.machines m).cancelled now
    t = ⟨m, plan, d.bus.next, begun.1⟩ ∧ begun.1.isOver = false ∧
      ∃ request, e = ((d.manned m plan.botId).carryOut begun.2).1.note (.asked who request) := by
  intro begun
  have hover : begun.1.isOver = false := by
    cases hcancelled : (d.machines m).cancelled <;>
      simp only [begun, hcancelled] <;> rfl
  have hbegun : d.begun m plan now = begun := by rw [Desk.begun, cancelled_manned]
  have hproceed := start?_eq_some h
  rw [hbegun, Prod.ext_iff] at hproceed
  obtain ⟨hdesk, htrader⟩ := hproceed
  have hquiet : ((d.manned m plan.botId).carryOut begun.2).2 = none :=
    carryOut_quiet (Run.start_spec plan (d.machines m).cancelled now plan.botId).1
  have hlater := proceed_trader (d.manned m plan.botId) who ⟨m, plan, d.bus.next, begun.1⟩ begun
  rw [hquiet] at hlater
  refine ⟨htrader.trans hlater, hover, ?_⟩
  rcases proceed_cases (d.manned m plan.botId) who ⟨m, plan, d.bus.next, begun.1⟩ begun with
    ⟨-, request, -, heq⟩ | ⟨hend, -⟩
  · exact ⟨request, hdesk.trans heq⟩
  · rw [hlater] at hend
    exact absurd (hover.symm.trans hend) Bool.false_ne_true

end Desk

end LaunchDesk
