import LaunchDesk.Bus.Delivery
import LaunchDesk.Proofs.Bus
import Mathlib.Algebra.Ring.Nat
import Mathlib.Logic.Relation

/-!
# Deliveries are complete

Whatever the subscribers do while they are called, an event goes to those who were subscribed to its
kind when it was published, to each once and in order, and a delivery within a call is over before
the call is. `Delivers` says so without a bound on the depth, and the bound that is computed with is
always enough: every delivery within another one uses up an act.
-/

namespace LaunchDesk

namespace Troupe

/-! ## Deliveries without a bound -/

mutual

/-- An event that is published when the troupe is `t` is delivered in full, and then it is `t'`. -/
inductive Delivers : Troupe → Event → Delivery → Troupe → Prop
  | mk {t t' : Troupe} {e : Event} {calls : List Call}
    (hcalls : Calls t e (t.bus.subscribed e.kind) calls t') : Delivers t e (.mk e calls) t'

/-- The given subscribers are called one after the other; each does all that it has to do before the
next one is called. -/
inductive Calls : Troupe → Event → List (SubscriptionId × String) → List Call → Troupe → Prop
  | done {t : Troupe} {e : Event} : Calls t e [] [] t
  | call {t u t' : Troupe} {e : Event} {id : SubscriptionId} {label : String} {deeds : List Deed}
    {rest : List (SubscriptionId × String)} {calls : List Call}
    (hdoes : Does (t.cue id).2 (t.cue id).1 deeds u) (hcalls : Calls u e rest calls t') :
    Calls t e ((id, label) :: rest) (.mk id label deeds :: calls) t'

/-- The given acts are done one after the other; what is published is delivered before the next act.
-/
inductive Does : Troupe → List Act → List Deed → Troupe → Prop
  | done {t : Troupe} : Does t [] [] t
  | subscribe {t t' : Troupe} {kind : EventKind} {label : String} {plays : Plays} {acts : List Act}
    {deeds : List Deed} (hdoes : Does (t.subscribe kind label plays).2 acts deeds t') :
    Does t (.subscribe kind label plays :: acts)
      (.subscribed (t.subscribe kind label plays).1 :: deeds) t'
  | unsubscribe {t t' : Troupe} {id : SubscriptionId} {acts : List Act} {deeds : List Deed}
    (hdoes : Does (t.unsubscribe id).2 acts deeds t') :
    Does t (.unsubscribe id :: acts)
      (.unsubscribed id (t.bus.wasGiven id) (t.unsubscribe id).1 :: deeds) t'
  | publish {t u t' : Troupe} {e : Event} {delivery : Delivery} {acts : List Act}
    {deeds : List Deed} (hdelivers : Delivers t e delivery u) (hdoes : Does u acts deeds t') :
    Does t (.publish e :: acts) (.published delivery :: deeds) t'

end

variable {t t' : Troupe} {e : Event} {d : Delivery} {calls : List Call} {deeds : List Deed}
variable {acts : List Act} {handlers : List (SubscriptionId × String)} {id : SubscriptionId}

/-! ## The order of the book -/

/-- The bus is in order, and each number on it has at most one part to play. -/
structure Booked (t : Troupe) : Prop where
  bus : t.bus.Ordered
  nodup : (t.plays.map Prod.fst).Nodup
  known : ∀ part ∈ t.plays, part.1 < t.bus.next

theorem booked_empty : Booked {} := ⟨Bus.ordered_empty, List.nodup_nil, nofun⟩

theorem Booked.subscribe (h : t.Booked) (kind : EventKind) (label : String) (plays : Plays) :
    (t.subscribe kind label plays).2.Booked where
  bus := h.bus.subscribe kind label
  nodup := by
    refine List.nodup_cons.mpr ⟨fun hmem => ?_, h.nodup⟩
    obtain ⟨part, hpart, hid⟩ := List.mem_map.mp hmem
    exact Nat.ne_of_lt (h.known part hpart) hid
  known part hpart := by
    rw [show (t.subscribe kind label plays).2.bus.next = t.bus.next + 1 from
      Bus.next_subscribe ..]
    rcases List.mem_cons.mp hpart with rfl | hold
    · exact Nat.lt_succ_self _
    · exact Nat.lt_succ_of_lt (h.known part hold)

theorem Booked.unsubscribe (h : t.Booked) (id : SubscriptionId) : (t.unsubscribe id).2.Booked where
  bus := h.bus.unsubscribe id
  nodup := h.nodup
  known part hpart := by
    rw [show (t.unsubscribe id).2.bus.next = t.bus.next from Bus.next_unsubscribe ..]
    exact h.known part hpart

theorem cue_eq (t : Troupe) (id : SubscriptionId) : t.cue id = ([], t) ∨
    ∃ acts rest, t.plays.lookup id = some (acts :: rest) ∧ t.cue id = (acts, { t with
      plays := t.plays.map fun part => if part.1 = id then (part.1, rest) else part }) := by
  unfold cue
  split
  · next acts rest hpart => exact .inr ⟨acts, rest, hpart, rfl⟩
  · exact .inl rfl

theorem bus_cue (t : Troupe) (id : SubscriptionId) : (t.cue id).2.bus = t.bus := by
  rcases cue_eq t id with h | ⟨acts, rest, -, h⟩ <;> rw [h]

theorem Booked.cue (h : t.Booked) (id : SubscriptionId) : (t.cue id).2.Booked := by
  rcases cue_eq t id with hcue | ⟨acts, rest, -, hcue⟩
  · rw [hcue]
    exact h
  · have hsame : (t.plays.map fun part => if part.1 = id then (part.1, rest) else part).map
        Prod.fst = t.plays.map Prod.fst := by
      rw [List.map_map]
      refine List.map_congr_left fun part _ => ?_
      rw [Function.comp_apply]
      split <;> rfl
    rw [hcue]
    refine ⟨h.bus, hsame ▸ h.nodup, fun part hpart => ?_⟩
    have hid : part.1 ∈ t.plays.map Prod.fst := hsame ▸ List.mem_map_of_mem hpart
    obtain ⟨old, hold, heq⟩ := List.mem_map.mp hid
    exact heq ▸ h.known old hold

/-! ## How many acts are left -/

theorem size_eq (t : Troupe) : t.size = (t.plays.map fun part => playsSize part.2).sum := by
  rw [List.sum_eq_foldl, List.foldl_map]
  rfl

theorem size_subscribe (t : Troupe) (kind : EventKind) (label : String) (plays : Plays) :
    (t.subscribe kind label plays).2.size = playsSize plays + t.size := by
  rw [size_eq, size_eq]
  rfl

theorem sum_parts {parts : List (SubscriptionId × Plays)} {rest : Plays}
    (hnodup : (parts.map Prod.fst).Nodup) (hpart : parts.lookup id = some (acts :: rest)) :
    (parts.map fun part => playsSize part.2).sum =
      ((parts.map fun part => if part.1 = id then (part.1, rest) else part).map
        fun part => playsSize part.2).sum + actsSize acts := by
  induction parts with
  | nil => cases hpart
  | cons part parts ih =>
    obtain ⟨i, plays⟩ := part
    obtain ⟨hnew, hnodup⟩ := List.nodup_cons.mp hnodup
    by_cases hi : i = id
    · subst hi
      obtain rfl : plays = acts :: rest := by simpa using hpart
      have hothers : (parts.map fun part => if part.1 = i then (part.1, rest) else part) =
          parts := by
        refine (List.map_congr_left fun part hpart => if_neg fun heq => hnew ?_).trans
          (List.map_id parts)
        exact List.mem_map.mpr ⟨part, hpart, heq⟩
      simp only [List.map_cons, List.sum_cons, if_true, hothers, playsSize]
      omega
    · have hlater : parts.lookup id = some (acts :: rest) := by
        rwa [List.lookup_cons, beq_false_of_ne (Ne.symm hi)] at hpart
      simp only [List.map_cons, List.sum_cons, if_neg hi, ih hnodup hlater]
      omega

theorem size_cue (h : t.Booked) (id : SubscriptionId) :
    t.size = (t.cue id).2.size + actsSize (t.cue id).1 := by
  rcases cue_eq t id with hcue | ⟨acts, rest, hpart, hcue⟩
  · rw [hcue]
    rfl
  · rw [hcue, size_eq, size_eq]
    exact sum_parts h.nodup hpart

/-! ## What every delivery keeps -/

/-- The troupe stays in order, and no more than `more` acts have come to it. -/
structure Continues (t t' : Troupe) (more : Nat) : Prop where
  booked : t'.Booked
  next : t.bus.next ≤ t'.bus.next
  size : t'.size ≤ t.size + more

theorem Continues.goes_on {u : Troupe} {k m n : Nat} (h : Continues t u m)
    (hlater : u.Booked → Continues u t' n) (hle : m + n ≤ k) : Continues t t' k where
  booked := (hlater h.booked).booked
  next := Nat.le_trans h.next (hlater h.booked).next
  size := by
    have hfirst := h.size
    have hsecond := (hlater h.booked).size
    omega

theorem Booked.continues (h : t.Booked) : Continues t t 0 := ⟨h, Nat.le_refl _, Nat.le_refl _⟩

theorem Booked.continues_subscribe (h : t.Booked) (kind : EventKind) (label : String)
    (plays : Plays) : Continues t (t.subscribe kind label plays).2 (playsSize plays) where
  booked := h.subscribe kind label plays
  next := (Bus.next_subscribe t.bus kind label).symm ▸ Nat.le_succ _
  size := Nat.le_of_eq ((size_subscribe ..).trans (Nat.add_comm ..))

theorem Booked.continues_unsubscribe (h : t.Booked) (id : SubscriptionId) :
    Continues t (t.unsubscribe id).2 0 where
  booked := h.unsubscribe id
  next := Nat.le_of_eq (Bus.next_unsubscribe t.bus id).symm
  size := Nat.le_refl _

/-- What a call adds was left before the cue. -/
theorem Booked.continues_call (h : t.Booked)
    (hdone : Continues (t.cue id).2 t' (actsSize (t.cue id).1)) : Continues t t' 0 where
  booked := hdone.booked
  next := bus_cue t id ▸ hdone.next
  size := size_cue h id ▸ hdone.size

mutual

theorem Delivers.continues : ∀ {t t' : Troupe} {e : Event} {d : Delivery},
    Delivers t e d t' → t.Booked → Continues t t' 0
  | _, _, _, _, .mk hcalls, ht => hcalls.continues ht

theorem Calls.continues : ∀ {t t' : Troupe} {e : Event}
    {handlers : List (SubscriptionId × String)} {calls : List Call},
    Calls t e handlers calls t' → t.Booked → Continues t t' 0
  | _, _, _, _, _, .done, ht => ht.continues
  | _, _, _, _, _, .call hdoes hcalls, ht =>
    (ht.continues_call (hdoes.continues (ht.cue _))).goes_on hcalls.continues (Nat.le_refl 0)

theorem Does.continues : ∀ {t t' : Troupe} {acts : List Act} {deeds : List Deed},
    Does t acts deeds t' → t.Booked → Continues t t' (actsSize acts)
  | _, _, _, _, .done, ht => ht.continues
  | _, _, _, _, .subscribe hdoes, ht =>
    (ht.continues_subscribe ..).goes_on hdoes.continues (by simp only [actsSize, Act.size]; omega)
  | _, _, _, _, .unsubscribe hdoes, ht =>
    (ht.continues_unsubscribe _).goes_on hdoes.continues (by simp only [actsSize]; omega)
  | _, _, _, _, .publish hdelivers hdoes, ht =>
    (hdelivers.continues ht).goes_on hdoes.continues (by simp only [actsSize]; omega)

end

/-! ## The bound is enough -/

/-- Every event is delivered in full within `depth` levels, if so many levels are enough. -/
def Suffices (depth : Nat) : Prop :=
  ∀ (t : Troupe) (e : Event), t.Booked → t.size < depth →
    Delivers t e (t.publishWithin depth e).1 (t.publishWithin depth e).2

theorem does_perform {depth : Nat} (hdepth : Suffices depth) (acts : List Act) (t : Troupe)
    (ht : t.Booked) (hsize : t.size + actsSize acts ≤ depth) :
    Does t acts (perform depth t acts).1 (perform depth t acts).2 := by
  -- By induction on the acts; what is left to be done shrinks with each, so the bound holds on.
  induction acts generalizing t with
  | nil =>
    rw [perform]
    exact .done
  | cons act acts ih =>
    rw [actsSize] at hsize
    cases act with
    | subscribe kind label plays =>
      rw [perform]
      have hfirst := ht.continues_subscribe kind label plays
      refine .subscribe (ih _ hfirst.booked ?_)
      have hadded := hfirst.size
      rw [Act.size] at hsize
      omega
    | unsubscribe id =>
      rw [perform]
      have hfirst := ht.continues_unsubscribe id
      refine .unsubscribe (ih _ hfirst.booked ?_)
      have hadded := hfirst.size
      omega
    | publish e =>
      rw [perform]
      have hdelivers := hdepth t e ht (by rw [Act.size] at hsize; omega)
      have hfirst := hdelivers.continues ht
      refine .publish hdelivers (ih _ hfirst.booked ?_)
      have hadded := hfirst.size
      omega

theorem calls_callAll {depth : Nat} (hdepth : Suffices depth) (e : Event)
    (handlers : List (SubscriptionId × String)) (t : Troupe) (ht : t.Booked)
    (hsize : t.size ≤ depth) :
    Calls t e handlers (callAll depth t e handlers).1 (callAll depth t e handlers).2 := by
  induction handlers generalizing t with
  | nil =>
    rw [callAll]
    exact .done
  | cons handler handlers ih =>
    obtain ⟨id, label⟩ := handler
    have hleft := size_cue ht id
    have hdoes := does_perform hdepth (t.cue id).1 (t.cue id).2 (ht.cue id) (by omega)
    have hdone := hdoes.continues (ht.cue id)
    rw [callAll]
    refine .call hdoes (ih _ hdone.booked ?_)
    have hadded := hdone.size
    omega

theorem suffices_all (depth : Nat) : Suffices depth := by
  induction depth with
  | zero => exact fun t e ht hsize => absurd hsize (Nat.not_lt_zero _)
  | succ depth ih =>
    intro t e ht hsize
    -- The acts of a call are off the part by then, so one level less is enough for them.
    rw [publishWithin]
    exact .mk (calls_callAll ih e _ t ht (Nat.le_of_lt_succ hsize))

theorem delivers_publish (ht : t.Booked) (e : Event) :
    Delivers t e (t.publish e).1 (t.publish e).2 :=
  suffices_all _ t e ht (Nat.lt_succ_self _)

/-! ## Calls and acts one by one -/

theorem Delivers.event_eq (h : Delivers t e d t') : d.event = e := by
  cases h
  rfl

theorem Delivers.calls_all (h : Delivers t e d t') :
    Calls t e (t.bus.subscribed e.kind) d.calls t' := by
  cases h with
  | mk hcalls => exact hcalls

theorem subscribers_of_calls (h : Calls t e handlers calls t') :
    calls.map Call.subscriber = handlers := by
  induction calls generalizing t handlers with
  | nil =>
    cases h
    rfl
  | cons call calls ih =>
    cases h with
    | call hdoes hcalls => rw [List.map_cons, ih hcalls, Call.subscriber]

theorem calls_split {earlier later : List Call} (h : Calls t e handlers (earlier ++ later) t') :
    ∃ first rest u, handlers = first ++ rest ∧ Calls t e first earlier u ∧
      Calls u e rest later t' := by
  induction earlier generalizing t handlers with
  | nil => exact ⟨[], handlers, t, rfl, .done, h⟩
  | cons call earlier ih =>
    cases h with
    | call hdoes hcalls =>
      obtain ⟨first, rest, u, rfl, hfirst, hrest⟩ := ih hcalls
      exact ⟨_ :: first, rest, u, rfl, .call hdoes hfirst, hrest⟩

theorem does_split {before after : List Deed} (h : Does t acts (before ++ after) t') :
    ∃ first rest u, acts = first ++ rest ∧ Does t first before u ∧ Does u rest after t' := by
  induction before generalizing t acts with
  | nil => exact ⟨[], acts, t, rfl, .done, h⟩
  | cons deed before ih =>
    cases h with
    | subscribe hdoes =>
      obtain ⟨first, rest, u, rfl, hfirst, hrest⟩ := ih hdoes
      exact ⟨_ :: first, rest, u, rfl, .subscribe hfirst, hrest⟩
    | unsubscribe hdoes =>
      obtain ⟨first, rest, u, rfl, hfirst, hrest⟩ := ih hdoes
      exact ⟨_ :: first, rest, u, rfl, .unsubscribe hfirst, hrest⟩
    | publish hdelivers hdoes =>
      obtain ⟨first, rest, u, rfl, hfirst, hrest⟩ := ih hdoes
      exact ⟨_ :: first, rest, u, rfl, .publish hdelivers hfirst, hrest⟩

/-- Where a subscriber is called in a delivery: the calls before it have made `u` of the troupe, and
the calls behind it go on from `v`. -/
structure Takes (t : Troupe) (e : Event) (earlier : List Call) (id : SubscriptionId)
    (label : String) (deeds : List Deed) (later : List Call) (t' u v : Troupe) : Prop where
  booked : u.Booked
  next : t.bus.next ≤ u.bus.next
  earlier : ∃ first, Calls t e first earlier u
  does : Does (u.cue id).2 (u.cue id).1 deeds v
  later : ∃ rest, Calls v e rest later t'

theorem takes_of_calls {earlier later : List Call} {label : String} (ht : t.Booked)
    (h : Calls t e handlers (earlier ++ .mk id label deeds :: later) t') :
    ∃ u v, Takes t e earlier id label deeds later t' u v := by
  obtain ⟨first, rest, u, -, hfirst, hrest⟩ := calls_split h
  have hbefore := hfirst.continues ht
  cases hrest with
  | call hdoes hlater =>
    exact ⟨u, _, hbefore.booked, hbefore.next, ⟨first, hfirst⟩, hdoes, ⟨_, hlater⟩⟩

/-- Where an event is published among some acts: those before it have made `s` of the troupe, and
those behind it go on from `s'`, when it is delivered. -/
structure Tells (t : Troupe) (acts : List Act) (before : List Deed) (inner : Delivery)
    (after : List Deed) (t' s s' : Troupe) : Prop where
  booked : s.Booked
  next : t.bus.next ≤ s.bus.next
  acts : ∃ first rest, acts = first ++ .publish inner.event :: rest ∧ Does t first before s ∧
    Does s' rest after t'
  delivers : Delivers s inner.event inner s'

theorem tells_of_does {before after : List Deed} {inner : Delivery} (ht : t.Booked)
    (h : Does t acts (before ++ .published inner :: after) t') :
    ∃ s s', Tells t acts before inner after t' s s' := by
  obtain ⟨first, rest, s, rfl, hfirst, hrest⟩ := does_split h
  have hbefore := hfirst.continues ht
  cases hrest with
  | publish hdelivers hafter =>
    have hevent := hdelivers.event_eq
    subst hevent
    exact ⟨s, _, hbefore.booked, hbefore.next, ⟨first, _, rfl, hfirst, hafter⟩, hdelivers⟩

theorem next_le_of_mem_deeds (ht : t.Booked) (h : Does t acts deeds t')
    (hid : .subscribed id ∈ deeds) : t.bus.next ≤ id := by
  obtain ⟨before, after, rfl⟩ := List.append_of_mem hid
  obtain ⟨first, rest, u, -, hfirst, hrest⟩ := does_split h
  have hbefore := (hfirst.continues ht).next
  cases hrest with
  | subscribe => exact hbefore

end Troupe

/-! ## Deliveries within a delivery -/

namespace Delivery

/-- The numbers of those who are called, in order. -/
def called (d : Delivery) : List SubscriptionId := d.calls.map (·.subscriber.1)

/-- `inner` is published in a call of `outer`. -/
def Contains (outer inner : Delivery) : Prop :=
  ∃ call ∈ outer.calls, .published inner ∈ call.deeds

/-- `inner` is `outer`, or it is published within it, however deep. -/
abbrev Includes : Delivery → Delivery → Prop := Relation.ReflTransGen Contains

/-- Someone is subscribed in a call, and gets this number. -/
def Enlists (d : Delivery) (id : SubscriptionId) : Prop :=
  ∃ call ∈ d.calls, .subscribed id ∈ call.deeds

end Delivery

theorem deedsSights_append (a b : List Deed) :
    deedsSights (a ++ b) = deedsSights a ++ deedsSights b := by
  induction a with
  | nil => rfl
  | cons deed a ih => cases deed <;> simp [deedsSights, ih]

theorem callsSights_append (e : Event) (a b : List Call) :
    callsSights e (a ++ b) = callsSights e a ++ callsSights e b := by
  induction a with
  | nil => rfl
  | cons call a ih =>
    cases call
    simp [callsSights, ih]

namespace Troupe

variable {t t' : Troupe} {e : Event} {d inner : Delivery} {id : SubscriptionId}

/-- A delivery within a delivery begins when that is under way. -/
theorem Delivers.within (h : Delivers t e d t') (ht : t.Booked) (hinner : d.Includes inner) :
    ∃ s s', s.Booked ∧ t.bus.next ≤ s.bus.next ∧ Delivers s inner.event inner s' := by
  induction hinner with
  | refl => exact ⟨t, t', ht, Nat.le_refl _, h.event_eq ▸ h⟩
  | tail _ hcontains ih =>
    obtain ⟨s, s', hs, hnext, hdelivers⟩ := ih
    obtain ⟨⟨id, label, deeds⟩, hcall, hdeed⟩ := hcontains
    obtain ⟨earlier, later, hsplit⟩ := List.append_of_mem hcall
    obtain ⟨before, after, rfl⟩ := List.append_of_mem hdeed
    obtain ⟨u, v, htakes⟩ := takes_of_calls hs (hsplit ▸ hdelivers.calls_all)
    obtain ⟨w, w', htells⟩ := tells_of_does (htakes.booked.cue id) htakes.does
    have hcalled := Nat.le_trans hnext htakes.next
    have hpublished := htells.next
    rw [bus_cue] at hpublished
    exact ⟨w, w', htells.booked, Nat.le_trans hcalled hpublished, htells.delivers⟩

theorem called_lt (h : Delivers t e d t') (ht : t.Booked) : ∀ id ∈ d.called, id < t.bus.next := by
  intro id hid
  obtain ⟨call, hcall, rfl⟩ := List.mem_map.mp hid
  refine ht.bus.numbered e.kind call.subscriber ?_
  rw [← subscribers_of_calls h.calls_all]
  exact List.mem_map_of_mem hcall

theorem next_le_of_enlists (h : Delivers t e d t') (ht : t.Booked) (hinner : d.Includes inner)
    (hid : inner.Enlists id) : t.bus.next ≤ id := by
  obtain ⟨s, s', hs, hnext, hdelivers⟩ := h.within ht hinner
  obtain ⟨⟨i, label, deeds⟩, hcall, hdeed⟩ := hid
  obtain ⟨earlier, later, hsplit⟩ := List.append_of_mem hcall
  obtain ⟨u, v, htakes⟩ := takes_of_calls hs (hsplit ▸ hdelivers.calls_all)
  have hjoined := next_le_of_mem_deeds (htakes.booked.cue i) htakes.does hdeed
  rw [bus_cue] at hjoined
  exact Nat.le_trans hnext (Nat.le_trans htakes.next hjoined)

/-- What a delivery comes to that begins when the troupe is `t` and ends when it is `t'`. -/
structure Complete (t : Troupe) (e : Event) (d : Delivery) (t' : Troupe) : Prop where
  event : d.event = e
  /-- Whoever is subscribed to the kind at the beginning is called, and nobody else, in order. -/
  subscribers : d.calls.map Call.subscriber = t.bus.subscribed e.kind
  once : d.called.Pairwise (· < ·)
  /-- Those who are subscribed to another kind are not called. -/
  others : ∀ kind, kind ≠ e.kind → ∀ h ∈ t.bus.subscribed kind, h.1 ∉ d.called
  /-- Those who join on the way are not called. -/
  latecomers : ∀ inner, d.Includes inner → ∀ id, inner.Enlists id → id ∉ d.called
  /-- What a subscriber publishes is delivered from its place in the call on, before the subscriber
  goes on and before the next one is called. -/
  within : ∀ earlier id label before inner after later,
    d.calls = earlier ++ .mk id label (before ++ .published inner :: after) :: later →
    (∃ u v s s', Takes t e earlier id label (before ++ .published inner :: after) later t' u v ∧
      Tells (u.cue id).2 (u.cue id).1 before inner after v s s') ∧
    d.sights = callsSights e earlier ++ (.called label e :: deedsSights before ++ inner.sights ++
      deedsSights after) ++ callsSights e later

theorem Delivers.complete (h : Delivers t e d t') (ht : t.Booked) : Complete t e d t' where
  event := h.event_eq
  subscribers := subscribers_of_calls h.calls_all
  once := by
    have hcalled : d.called = (t.bus.subscribed e.kind).map Prod.fst := by
      rw [← subscribers_of_calls h.calls_all, List.map_map]
      rfl
    rw [hcalled, List.pairwise_map]
    exact ht.bus.sorted e.kind
  others kind hkind other hother hcalled := by
    obtain ⟨call, hcall, hid⟩ := List.mem_map.mp hcalled
    have hmem : call.subscriber ∈ t.bus.subscribed e.kind := by
      rw [← subscribers_of_calls h.calls_all]
      exact List.mem_map_of_mem hcall
    exact hkind (ht.bus.apart kind e.kind other call.subscriber hother hmem hid.symm)
  latecomers inner hinner id hid hcalled :=
    Nat.not_lt_of_le (next_le_of_enlists h ht hinner hid) (called_lt h ht id hcalled)
  within earlier id label before inner after later hsplit := by
    constructor
    · obtain ⟨u, v, htakes⟩ := takes_of_calls ht (hsplit ▸ h.calls_all)
      obtain ⟨s, s', htells⟩ := tells_of_does (htakes.booked.cue id) htakes.does
      exact ⟨u, v, s, s', htakes, htells⟩
    · obtain rfl := h.event_eq
      obtain ⟨event, calls⟩ := d
      obtain rfl : calls = _ := hsplit
      simp [Delivery.sights, Delivery.event, callsSights, callsSights_append, deedsSights,
        deedsSights_append]

/-! ## From an empty troupe on -/

/-- What an act from outside makes of a troupe. -/
def after (t : Troupe) : Act → Troupe
  | .subscribe kind label plays => (t.subscribe kind label plays).2
  | .unsubscribe id => (t.unsubscribe id).2
  | .publish e => (t.publish e).2

/-- The troupe that acts from outside make, one after the other. -/
def assemble (acts : List Act) : Troupe := acts.foldl after {}

theorem Booked.after (ht : t.Booked) (act : Act) : (t.after act).Booked := by
  cases act with
  | subscribe kind label plays => exact ht.subscribe kind label plays
  | unsubscribe id => exact ht.unsubscribe id
  | publish e => exact ((delivers_publish ht e).continues ht).booked

theorem booked_assemble (acts : List Act) : (assemble acts).Booked :=
  List.foldlRecOn acts after booked_empty fun _ ht act _ => ht.after act

/-- Whatever has happened on the bus so far, and whatever the subscribers do while they are called,
an event is delivered in full, to those who are subscribed to its kind when it is published. The
same is true of every event that is published on the way, from its place on. Whoever subscribes is
told of the kind asked for and no other, after all who were there before. -/
theorem every_delivery_is_complete (acts : List Act) (e : Event) :
    let t := assemble acts
    Delivers t e (t.publish e).1 (t.publish e).2 ∧ Complete t e (t.publish e).1 (t.publish e).2 ∧
      t.Booked ∧ (∀ s e d s', s.Booked → Delivers s e d s' → Complete s e d s') ∧
      ∀ (s : Troupe) kind label plays other,
        (s.subscribe kind label plays).2.bus.subscribed other =
          s.bus.subscribed other ++ if other = kind then [(s.bus.next, label)] else [] := by
  intro t
  have ht : t.Booked := booked_assemble acts
  have hdelivers : Delivers t e (t.publish e).1 (t.publish e).2 := delivers_publish ht e
  exact ⟨hdelivers, hdelivers.complete ht, ht, fun _ _ _ _ hs h => h.complete hs,
    fun s kind label _ other => Bus.subscribed_subscribe s.bus kind label other⟩

/-- The first subscriber removes the second, adds a third and asks for a stop. -/
def meddlers : List Act :=
  [.subscribe .cycle "first"
      [[.unsubscribe 2, .subscribe .cycle "third" [], .publish (.stop (.all .shutdown))]],
    .subscribe .cycle "second" [], .subscribe .stop "other" []]

def sampleCycle : Event := .cycle default (.exited ⟨default, "mint", .stopped, []⟩)

/-- The second is called all the same, after the stop has been delivered, and the third is not. -/
theorem removed_subscriber_is_called :
    let t := assemble meddlers
    Complete t sampleCycle (t.publish sampleCycle).1 (t.publish sampleCycle).2 ∧
      t.bus.subscribed .cycle = [(1, "first"), (2, "second")] ∧
      (t.publish sampleCycle).1.sights = [.called "first" sampleCycle, .unsubscribed true true,
        .called "other" (.stop (.all .shutdown)), .called "second" sampleCycle] := by
  obtain ⟨-, hcomplete, -⟩ := every_delivery_is_complete meddlers sampleCycle
  refine ⟨hcomplete, rfl, ?_⟩
  simp [assemble, meddlers, sampleCycle, after, publish, publishWithin, callAll, perform, cue,
    subscribe, unsubscribe, size, Act.size, actsSize, playsSize, List.lookup_cons, Bus.subscribe,
    Bus.unsubscribe, Bus.holds, Bus.without, Bus.subscribed, Bus.wasGiven, Event.kind,
    Delivery.sights, callsSights, deedsSights]

end Troupe

end LaunchDesk
