import LaunchDesk.Bench
import LaunchDesk.Proofs.Desk.Numbers
import LaunchDesk.Proofs.Floor.Moves
import Mathlib.Data.List.InsertIdx

/-!
# One machine

A bench goes on in moves, in any order: a run is tried on its machine, a run gets a reply or is
broken off, the machine is cancelled, and stop requests are published. At most one run is at work.
While it is, the machine is taken and the run is the only newcomer on the bus; when it is over, in
whatever way, both are as they were. A run that is tried in the meantime fails at once, and it makes
no difference to anything else.
-/

namespace LaunchDesk.Bench

variable {b : Bench} {d : Desk} {k n : Nat} {t : Trader} {first : Bus Subscriber}

/-! ## Moves -/

inductive Move
  | spawn (bot : BotId) (opportunity : Opportunity) (strategy : Strategy) (now : Moment)
  | reply (now : Moment) (run : Nat) (reply : Reply)
  | abort (run : Nat)
  | cancel
  | stop (request : StopRequest)

def after (b : Bench) : Move → Bench
  | .spawn bot opportunity strategy now => b.spawn bot opportunity strategy now
  | .reply now k reply => b.reply now k reply
  | .abort k => b.abort k
  | .cancel => b.cancel
  | .stop request => b.publishStop request

def play (b : Bench) (moves : List Move) : Bench := moves.foldl after b

/-- The slot of a run that was tried while another one was at work. -/
def refusal : Slot := .over (.result (.error .alreadyRunning))

/-! ## Who is at work -/

/-- No run is at work, the machine is free, and on the bus are those of `first`. -/
structure Idle (first : Bus Subscriber) (b : Bench) : Prop where
  ended : ∀ slot ∈ b.slots, slot.isOver = true
  free : b.machine.running = false
  bus : b.desk.bus = { first with next := b.desk.bus.next }
  next : first.next ≤ b.desk.bus.next

/-- Run `k` alone is at work and has the machine. On the bus it has come after those of `first`. -/
structure Busy (first : Bus Subscriber) (b : Bench) (k : Nat) (t : Trader) : Prop where
  working : b.slots[k]? = some (.working t)
  alone : ∀ j slot, b.slots[j]? = some slot → j ≠ k → slot.isOver = true
  taken : b.machine.running = true
  machine : t.machine = 0
  bus : b.desk.bus = { first with
    next := b.desk.bus.next
    stops := first.stops ++ [(t.subscription, .run 0 t.plan.botId)] }
  newcomer : first.next ≤ t.subscription
  next : first.next ≤ b.desk.bus.next

theorem Idle.nobody (h : Idle first b) (j : Nat) (u : Trader) :
    b.slots[j]? ≠ some (.working u) := by
  intro hj
  cases h.ended _ (List.mem_of_getElem? hj)

theorem Busy.only (h : Busy first b k t) {j : Nat} {u : Trader}
    (hj : b.slots[j]? = some (.working u)) : j = k ∧ t = u := by
  obtain rfl : j = k := by
    by_contra hne
    cases h.alone j _ hj hne
  cases h.working.symm.trans hj
  exact ⟨rfl, rfl⟩

theorem Idle.of_desk (h : Idle first b) (hbus : d.bus = b.desk.bus)
    (hrunning : (d.machines 0).running = (b.desk.machines 0).running) :
    Idle first { b with desk := d } where
  ended := h.ended
  free := hrunning.trans h.free
  bus := by
    rw [hbus]
    exact h.bus
  next := by
    rw [hbus]
    exact h.next

theorem Busy.of_desk (h : Busy first b k t) (hbus : d.bus = b.desk.bus)
    (hrunning : (d.machines 0).running = (b.desk.machines 0).running) :
    Busy first { b with desk := d } k t where
  working := h.working
  alone := h.alone
  taken := hrunning.trans h.taken
  machine := h.machine
  bus := by
    rw [hbus]
    exact h.bus
  newcomer := h.newcomer
  next := by
    rw [hbus]
    exact h.next

theorem ofTrader_working (h : t.run.isOver = false) : Slot.ofTrader t = .working t := by
  unfold Run.isOver at h
  unfold Slot.ofTrader
  split <;> simp_all

theorem ofTrader_over (h : t.run.isOver = true) : (Slot.ofTrader t).isOver = true := by
  unfold Run.isOver at h
  unfold Slot.ofTrader
  split <;> simp_all [Slot.isOver]

/-! ## The end of a run -/

theorem Busy.over_of_set (h : Busy first b k t) {ending : Slot} (hover : ending.isOver = true) :
    ∀ slot ∈ b.slots.set k ending, slot.isOver = true := by
  intro slot hslot
  obtain ⟨j, hj⟩ := List.mem_iff_getElem?.mp hslot
  rw [List.getElem?_set] at hj
  split at hj
  · split at hj
    · cases hj
      exact hover
    · cases hj
  · next hne => exact h.alone j slot hj fun heq => hne heq.symm

theorem Busy.leave (h : Busy first b k t)
    (hfirst : ∀ kind, ∀ e ∈ first.subscribed kind, e.1 < first.next)
    (hbus : d.bus = b.desk.bus) {ending : Slot} (hover : ending.isOver = true) :
    Idle first { b with desk := d.leave t, slots := b.slots.set k ending } := by
  have hlater : ∀ kind, ∀ e ∈ first.subscribed kind, e.1 < t.subscription :=
    fun kind e he => Nat.lt_of_lt_of_le (hfirst kind e he) h.newcomer
  -- The run has come last to stop requests, so without it the bus is the first one but for numbers.
  have hleft : (d.leave t).bus = { first with next := b.desk.bus.next } := by
    have hunsubscribed : (d.leave t).bus = (d.bus.unsubscribe t.subscription).2 := rfl
    rw [hunsubscribed, hbus, h.bus, Bus.unsubscribe_newcomer hlater]
  constructor
  · exact h.over_of_set hover
  · have hfree : ((d.leave t).machines t.machine).running = false := by
      simp [Desk.leave, Desk.updateMachine]
    rw [h.machine] at hfree
    exact hfree
  · rw [hleft]
  · rw [hleft]
    exact h.next

/-! ## Every move -/

theorem Idle.spawn (h : Idle first b) (bot : BotId) (opportunity : Opportunity)
    (strategy : Strategy) (now : Moment) :
    ∃ t, Busy first (b.spawn bot opportunity strategy now) b.slots.length t := by
  let plan : Plan := ⟨b.settings, bot, opportunity, strategy, b.classify⟩
  obtain ⟨⟨e, t⟩, hstart⟩ : ∃ p, b.desk.start? b.slots.length 0 plan now = some p :=
    ⟨_, Desk.start?_of_free h.free b.slots.length plan now⟩
  obtain ⟨htrader, hover, request, hdesk⟩ := Desk.start?_spec hstart
  have hslot : Slot.ofTrader t = .working t := by
    refine ofTrader_working ?_
    rw [htrader]
    exact hover
  have hspawn : b.spawn bot opportunity strategy now =
      { b with desk := e, slots := b.slots ++ [.working t] } := by
    simp only [Bench.spawn]
    rw [hstart, ← hslot]
  have hbus : e.bus = (b.desk.manned 0 bot).bus := by
    rw [hdesk]
    exact Desk.bus_carryOut _ _
  have hquiet := Desk.carryOut_quiet_broadcasts (d := b.desk.manned 0 bot)
    (Run.start_spec plan (b.desk.machines 0).cancelled now bot).1
  rw [hspawn]
  refine ⟨t, ?_, ?_, ?_, ?_, ?_, ?_, ?_⟩
  · exact List.getElem?_concat_length
  · intro j slot hj hne
    have hlt : j < b.slots.length := by
      have hj := (List.getElem?_eq_some_iff.mp hj).1
      rw [List.length_append, List.length_singleton] at hj
      omega
    rw [List.getElem?_append_left hlt] at hj
    exact h.ended slot (List.mem_of_getElem? hj)
  · simp only [Bench.machine]
    rw [hdesk]
    exact hquiet.running 0
  · rw [htrader]
  · rw [hbus, htrader]
    have hsubscribed : (b.desk.manned 0 bot).bus = { b.desk.bus with
        next := b.desk.bus.next + 1
        stops := b.desk.bus.stops ++ [(b.desk.bus.next, .run 0 bot)] } := rfl
    rw [hsubscribed, h.bus]
  · rw [htrader]
    exact h.next
  · rw [hbus]
    exact Nat.le_succ_of_le h.next

theorem spawn_refused (h : b.machine.running = true) (bot : BotId) (opportunity : Opportunity)
    (strategy : Strategy) (now : Moment) :
    b.spawn bot opportunity strategy now = { b with slots := b.slots ++ [refusal] } := by
  have hnone : ∀ plan, b.desk.start? b.slots.length 0 plan now = none := fun plan => if_pos h
  simp only [Bench.spawn, hnone]
  rfl

theorem Busy.spawn (h : Busy first b k t) (bot : BotId) (opportunity : Opportunity)
    (strategy : Strategy) (now : Moment) :
    Busy first (b.spawn bot opportunity strategy now) k t := by
  rw [spawn_refused h.taken]
  have hk := (List.getElem?_eq_some_iff.mp h.working).1
  refine ⟨?_, ?_, h.taken, h.machine, h.bus, h.newcomer, h.next⟩
  · exact (List.getElem?_append_left hk).trans h.working
  · intro j slot hj hne
    rw [List.getElem?_append] at hj
    split at hj
    · exact h.alone j slot hj hne
    · rw [List.getElem?_singleton] at hj
      split at hj
      · cases hj
        rfl
      · cases hj

theorem Busy.goes_on (h : Busy first b k t) {u : Trader} (hmachine : u.machine = t.machine)
    (hsubscription : u.subscription = t.subscription) (hplan : u.plan = t.plan)
    (hbus : d.bus = b.desk.bus)
    (hrunning : (d.machines 0).running = (b.desk.machines 0).running) :
    Busy first { b with desk := d, slots := b.slots.set k (.working u) } k u where
  working := List.getElem?_set_self (List.getElem?_eq_some_iff.mp h.working).1
  alone j slot hj hne := by
    rw [List.getElem?_set_ne hne.symm] at hj
    exact h.alone j slot hj hne
  taken := hrunning.trans h.taken
  machine := hmachine.trans h.machine
  bus := by
    rw [hbus, hsubscription, hplan]
    exact h.bus
  newcomer := by
    rw [hsubscription]
    exact h.newcomer
  next := by
    rw [hbus]
    exact h.next

theorem Busy.reply (h : Busy first b k t)
    (hfirst : ∀ kind, ∀ e ∈ first.subscribed kind, e.1 < first.next) (now : Moment) (j : Nat)
    (reply : Reply) :
    (∃ u, Busy first (b.reply now j reply) k u) ∨ Idle first (b.reply now j reply) := by
  unfold Bench.reply
  split
  · next trader hj =>
    obtain ⟨rfl, rfl⟩ := h.only hj
    simp only [Desk.resume]
    have hanswers := Desk.resume_answers b.desk t.plan (b.desk.machines t.machine).cancelled now
      t.run reply
    generalize t.run.resume t.plan _ now reply = next at hanswers ⊢
    obtain ⟨requests, hcarried, -⟩ := hanswers
    have htrader := Desk.proceed_trader b.desk j t next
    rcases Desk.proceed_cases b.desk j t next with ⟨hover, request, -, hdesk⟩ | ⟨hover, hdesk⟩
    · rw [ofTrader_working hover, hdesk, htrader]
      exact .inl ⟨_, h.goes_on rfl rfl rfl hcarried.bus (hcarried.running 0)⟩
    · rw [hdesk]
      exact .inr (h.leave hfirst hcarried.bus (ofTrader_over hover))
  · exact .inl ⟨t, h⟩

theorem Busy.abort (h : Busy first b k t)
    (hfirst : ∀ kind, ∀ e ∈ first.subscribed kind, e.1 < first.next) (j : Nat) :
    Busy first (b.abort j) k t ∨ Idle first (b.abort j) := by
  unfold Bench.abort
  split
  · next trader hj =>
    obtain ⟨rfl, rfl⟩ := h.only hj
    exact .inr (h.leave hfirst rfl rfl)
  · exact .inl h

theorem machines_cancel (d : Desk) :
    (d.cancel 0).bus = d.bus ∧ ((d.cancel 0).machines 0).running = (d.machines 0).running := by
  unfold Desk.cancel
  split
  · exact ⟨rfl, rfl⟩
  · exact ⟨rfl, rfl⟩

theorem Busy.after (h : Busy first b k t)
    (hfirst : ∀ kind, ∀ e ∈ first.subscribed kind, e.1 < first.next) (move : Move) :
    (∃ u, Busy first (b.after move) k u) ∨ Idle first (b.after move) := by
  cases move with
  | spawn bot opportunity strategy now => exact .inl ⟨t, h.spawn bot opportunity strategy now⟩
  | reply now j reply => exact h.reply hfirst now j reply
  | abort j => exact (h.abort hfirst j).imp_left fun hbusy => ⟨t, hbusy⟩
  | cancel =>
    obtain ⟨hbus, hrunning⟩ := machines_cancel b.desk
    exact .inl ⟨t, h.of_desk hbus hrunning⟩
  | stop request =>
    have hpublished := Desk.publishStop_broadcasts b.desk request
    exact .inl ⟨t, h.of_desk hpublished.bus (hpublished.running 0)⟩

theorem Idle.after (h : Idle first b) (move : Move) :
    (∃ k t, Busy first (b.after move) k t) ∨ Idle first (b.after move) := by
  cases move with
  | spawn bot opportunity strategy now => exact .inl ⟨_, h.spawn bot opportunity strategy now⟩
  | reply now j reply =>
    simp only [Bench.after, Bench.reply]
    split
    · next trader hj => exact absurd hj (h.nobody j trader)
    · exact .inr h
  | abort j =>
    simp only [Bench.after, Bench.abort]
    split
    · next trader hj => exact absurd hj (h.nobody j trader)
    · exact .inr h
  | cancel =>
    obtain ⟨hbus, hrunning⟩ := machines_cancel b.desk
    exact .inr (h.of_desk hbus hrunning)
  | stop request =>
    have hpublished := Desk.publishStop_broadcasts b.desk request
    exact .inr (h.of_desk hpublished.bus (hpublished.running 0))

/-! ## A run that is refused -/

/-- The number of a run when there is one more before it, with the number `n`. -/
def past (n k : Nat) : Nat := if k < n then k else k + 1

/-- The same move, when there is one more run with the number `n`. -/
def Move.past (n : Nat) : Move → Move
  | .reply now k answer => .reply now (Bench.past n k) answer
  | .abort k => .abort (Bench.past n k)
  | move => move

/-- The same bench, with one more run that was refused under the number `n`. -/
def withRefusal (n : Nat) (b : Bench) : Bench :=
  { b with desk := b.desk.renumbered (past n), slots := b.slots.insertIdx n refusal }

theorem getElem?_past (slots : List Slot) (n k : Nat) :
    (slots.insertIdx n refusal)[past n k]? = slots[k]? := by
  unfold past
  split
  · next h => exact List.getElem?_insertIdx_of_lt h
  · next h => exact List.getElem?_insertIdx_of_gt (by omega)

theorem set_past (slots : List Slot) (n k : Nat) (slot : Slot) :
    (slots.insertIdx n refusal).set (past n k) slot = (slots.set k slot).insertIdx n refusal := by
  unfold past
  ext1 j
  simp only [List.getElem?_set, List.getElem?_insertIdx, List.length_set, List.length_insertIdx]
  split <;> grind

theorem append_past (slots : List Slot) (h : n ≤ slots.length) (slot : Slot) :
    slots.insertIdx n refusal ++ [slot] = (slots ++ [slot]).insertIdx n refusal := by
  ext1 j
  simp only [List.getElem?_append, List.getElem?_insertIdx, List.length_append,
    List.length_insertIdx, if_pos h, List.length_singleton]
  grind

theorem withRefusal_spawn (h : n ≤ b.slots.length) (bot : BotId) (opportunity : Opportunity)
    (strategy : Strategy) (now : Moment) : (b.withRefusal n).spawn bot opportunity strategy now =
      (b.spawn bot opportunity strategy now).withRefusal n := by
  have hnumber : (b.withRefusal n).slots.length = past n b.slots.length := by
    simp only [withRefusal, List.length_insertIdx, if_pos h, past, if_neg (Nat.not_lt_of_le h)]
  let plan : Plan := ⟨b.settings, bot, opportunity, strategy, b.classify⟩
  have hstart : (b.withRefusal n).desk.start? (past n b.slots.length) 0 plan now = _ :=
    Desk.renumbered_start? (past n) b.desk b.slots.length 0 plan now
  have hplan : Plan.mk (b.withRefusal n).settings bot opportunity strategy
      (b.withRefusal n).classify = plan := rfl
  simp only [Bench.spawn, hnumber, hplan, hstart]
  cases b.desk.start? b.slots.length 0 plan now with
  | none => simp only [Option.map_none, withRefusal, append_past b.slots h]
  | some p => simp only [Option.map_some, withRefusal, append_past b.slots h]

theorem withRefusal_reply (now : Moment) (k : Nat) (answer : Reply) :
    (b.withRefusal n).reply now (past n k) answer = (b.reply now k answer).withRefusal n := by
  have hslot : (b.withRefusal n).slots[past n k]? = b.slots[k]? := getElem?_past b.slots n k
  simp only [Bench.reply, hslot]
  split
  · simp only [withRefusal, Desk.renumbered_resume, set_past]
  · rfl

theorem withRefusal_abort (k : Nat) :
    (b.withRefusal n).abort (past n k) = (b.abort k).withRefusal n := by
  have hslot : (b.withRefusal n).slots[past n k]? = b.slots[k]? := getElem?_past b.slots n k
  simp only [Bench.abort, hslot]
  split
  · simp only [withRefusal, Desk.renumbered_leave, set_past]
  · rfl

theorem withRefusal_after (h : n ≤ b.slots.length) (move : Move) :
    (b.withRefusal n).after (move.past n) = (b.after move).withRefusal n := by
  cases move with
  | spawn bot opportunity strategy now => exact withRefusal_spawn h bot opportunity strategy now
  | reply now k answer => exact withRefusal_reply now k answer
  | abort k => exact withRefusal_abort k
  | cancel =>
    exact congrArg (fun d => { b.withRefusal n with desk := d }) (Desk.renumbered_cancel ..)
  | stop request =>
    exact congrArg (fun d => { b.withRefusal n with desk := d }) (Desk.renumbered_publishStop ..)

theorem length_after (b : Bench) (move : Move) : b.slots.length ≤ (b.after move).slots.length := by
  cases move with
  | spawn bot opportunity strategy now =>
    simp only [after, spawn]
    split <;> simp
  | reply now k answer =>
    simp only [after, Bench.reply]
    split <;> simp
  | abort k =>
    simp only [after, Bench.abort]
    split <;> simp
  | cancel => exact Nat.le_refl _
  | stop request => exact Nat.le_refl _

/-- A refused run makes no difference to what comes later. -/
theorem withRefusal_play (h : n ≤ b.slots.length) (moves : List Move) :
    (b.withRefusal n).play (moves.map (Move.past n)) = (b.play moves).withRefusal n := by
  induction moves generalizing b with
  | nil => rfl
  | cons move moves ih =>
    have hplay := ih (b := b.after move) (Nat.le_trans h (length_after b move))
    rw [List.map_cons, play, List.foldl_cons, withRefusal_after h]
    exact hplay

/-! ## The numbers in notes -/

/-- No note has a number that has not been given to a run yet. -/
def Named (b : Bench) : Prop :=
  ∀ f : Nat → Nat, (∀ k < b.slots.length, f k = k) → b.desk.renumbered f = b.desk

theorem Named.spawn (h : Named b) (bot : BotId) (opportunity : Opportunity) (strategy : Strategy)
    (now : Moment) : Named (b.spawn bot opportunity strategy now) := by
  let plan : Plan := ⟨b.settings, bot, opportunity, strategy, b.classify⟩
  simp only [Bench.spawn]
  split
  · next e t hstart =>
    intro f hf
    rw [List.length_append, List.length_singleton] at hf
    have hsame := Desk.renumbered_start? f b.desk b.slots.length 0 plan now
    rw [h f fun k hk => hf k (Nat.lt_succ_of_lt hk), hf _ (Nat.lt_succ_self _), hstart] at hsame
    exact (congrArg Prod.fst (Option.some.inj hsame)).symm
  · intro f hf
    rw [List.length_append] at hf
    exact h f fun k hk => hf k (Nat.lt_add_right _ hk)

theorem Named.reply (h : Named b) (now : Moment) (k : Nat) (answer : Reply) :
    Named (b.reply now k answer) := by
  simp only [Bench.reply]
  split
  · next t hk =>
    intro f hf
    rw [List.length_set] at hf
    have hsame := Desk.renumbered_resume f b.desk k t now answer
    rw [h f hf, hf k (List.getElem?_eq_some_iff.mp hk).1] at hsame
    exact (congrArg Prod.fst hsame).symm
  · exact h

theorem Named.after (h : Named b) (move : Move) : Named (b.after move) := by
  cases move with
  | spawn bot opportunity strategy now => exact h.spawn bot opportunity strategy now
  | reply now k answer => exact h.reply now k answer
  | abort k =>
    simp only [Bench.after, Bench.abort]
    split
    · intro f hf
      rw [List.length_set] at hf
      rw [← Desk.renumbered_leave, h f hf]
    · exact h
  | cancel =>
    intro f hf
    rw [Bench.after, Bench.cancel, ← Desk.renumbered_cancel, h f hf]
  | stop request =>
    intro f hf
    rw [Bench.after, Bench.publishStop, ← Desk.renumbered_publishStop, h f hf]

theorem Named.withRefusal (h : Named b) :
    b.withRefusal b.slots.length = { b with slots := b.slots ++ [refusal] } := by
  have hdesk : b.desk.renumbered (past b.slots.length) = b.desk := h _ fun k hk => if_pos hk
  rw [Bench.withRefusal, hdesk, List.insertIdx_length_self]

/-! ## All moves -/

/-- A bench on which nothing has been tried yet. -/
structure Fresh (b : Bench) : Prop where
  slots : b.slots = []
  free : b.machine.running = false
  numbered : ∀ kind, ∀ e ∈ b.desk.bus.subscribed kind, e.1 < b.desk.bus.next
  unnamed : ∀ n ∈ b.desk.notes, n.run? = none

theorem Fresh.idle (h : Fresh b) : Idle b.desk.bus b where
  ended := by
    rw [h.slots]
    exact List.forall_mem_nil _
  free := h.free
  bus := rfl
  next := Nat.le_refl _

theorem play_snoc (b : Bench) (moves : List Move) (move : Move) :
    b.play (moves ++ [move]) = (b.play moves).after move := List.foldl_append

theorem Fresh.named (h : Fresh b) : Named b := by
  intro f _
  have hnotes : b.desk.notes.map (Desk.Note.renumbered f) = b.desk.notes.map id :=
    List.map_congr_left fun n hn => Desk.Note.renumbered_of_none (h.unnamed n hn)
  rw [Desk.renumbered, hnotes, List.map_id]

theorem Named.play (h : Named b) (moves : List Move) : Named (b.play moves) := by
  induction moves using List.reverseRecOn with
  | nil => exact h
  | append_singleton moves move ih =>
    rw [play_snoc]
    exact ih.after move

theorem Fresh.play (h : Fresh b) (moves : List Move) :
    (∃ k t, Busy b.desk.bus (b.play moves) k t) ∨ Idle b.desk.bus (b.play moves) := by
  -- At any time one run is at work or none is; each move leads from either to one of the two.
  induction moves using List.reverseRecOn with
  | nil => exact .inr h.idle
  | append_singleton moves move ih =>
    rw [play_snoc]
    rcases ih with ⟨k, t, hbusy⟩ | hidle
    · exact (hbusy.after h.numbered move).imp_left fun ⟨u, hu⟩ => ⟨k, u, hu⟩
    · exact hidle.after move

/-- In any interleaving of runs, cancels and stop requests at most one run is at work. A run that is
tried while another one is at work fails at once and leaves the desk alone, and whatever comes later
comes to the same as without it. When the run at work is over, however it ends, the machine is free
and the bus is as it was before any run. -/
theorem one_run_at_a_time (h : Fresh b) (moves : List Move) :
    let c := b.play moves
    ((∃ k t, Busy b.desk.bus c k t) ∨ Idle b.desk.bus c) ∧
    (c.machine.running = true → ∀ bot opportunity strategy now,
      let refused := c.spawn bot opportunity strategy now
      refused = { c with slots := c.slots ++ [refusal] } ∧
      ∀ later, refused.play (later.map (Move.past c.slots.length)) =
        (c.play later).withRefusal c.slots.length) ∧
    ∀ k t move slot, Busy b.desk.bus c k t → (c.after move).slots[k]? = some slot →
      slot.isOver = true → Idle b.desk.bus (c.after move) := by
  intro c
  refine ⟨h.play moves, ?_, ?_⟩
  · intro hrunning bot opportunity strategy now refused
    have hrefused : refused = { c with slots := c.slots ++ [refusal] } :=
      spawn_refused hrunning bot opportunity strategy now
    refine ⟨hrefused, fun later => ?_⟩
    -- No note has the number of the refused run yet, so none changes when it is put in.
    rw [hrefused, ← (h.named.play moves).withRefusal]
    exact withRefusal_play (Nat.le_refl _) later
  · intro k t move slot hbusy hslot hover
    rcases hbusy.after h.numbered move with ⟨u, hu⟩ | hidle
    · cases hu.working.symm.trans hslot
      cases hover
    · exact hidle

theorem fresh_create {settings : TradingSettings} {classify : Classifier}
    (h : create settings classify = .ok b) : Fresh b := by
  unfold create at h
  cases hvalid : settings.validate with
  | error fault =>
    rw [hvalid] at h
    cases h
  | ok _ =>
    rw [hvalid] at h
    cases h
    refine ⟨rfl, rfl, ?_, List.forall_mem_nil _⟩
    have hbus : (Desk.addRecorders { intake := { maxConcurrent := none } }).bus =
        ⟨4, [(1, .recorder)], [(2, .recorder)], [(3, .recorder)]⟩ := rfl
    rw [hbus]
    rintro (_ | _ | _) e he <;> obtain rfl := List.mem_singleton.mp he <;> decide

/-- A second run fails while the first one is at work, and when that is broken off the bench is as
it was. -/
theorem second_run_is_refused :
    ∃ b, create {} Classifier.standard = .ok b ∧
      let move := Move.spawn default default Run.eagerPlan.strategy ⟨0, default⟩
      let c := b.play [move]
      c.machine.running = true ∧ c.after move = { c with slots := c.slots ++ [refusal] } ∧
        Idle b.desk.bus (c.after (.abort 0)) := by
  obtain ⟨b, hb⟩ : ∃ b, create {} Classifier.standard = .ok b := ⟨_, rfl⟩
  refine ⟨b, hb, ?_⟩
  intro move c
  have hfresh := fresh_create hb
  have hrunning : c.machine.running = true := by
    cases hb
    rfl
  have hlength : c.slots.length = 1 := by
    cases hb
    rfl
  obtain ⟨hstands, hrefused, hends⟩ := one_run_at_a_time hfresh [move]
  refine ⟨hrunning, (hrefused hrunning default default Run.eagerPlan.strategy ⟨0, default⟩).1, ?_⟩
  rcases hstands with ⟨k, t, hbusy⟩ | hidle
  · have hk : k < c.slots.length := (List.getElem?_eq_some_iff.mp hbusy.working).1
    obtain rfl : k = 0 := by omega
    refine hends 0 t (.abort 0) (.over .aborted) hbusy ?_ rfl
    cases hb
    rfl
  · cases hidle.free.symm.trans hrunning

end LaunchDesk.Bench
