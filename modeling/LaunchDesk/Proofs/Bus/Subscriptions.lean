import LaunchDesk.Proofs.Bus.Delivery
import LaunchDesk.Proofs.Sequences

/-!
# The history of a bus

The answers of a bus, to whoever subscribes or ends a subscription, are its history. A subscription
stands if its number was given and it was not ended since. The lists of a bus hold what stands and
nothing else, so a subscription is ended if and only if it stands. This is also true of what
subscribers do while they are called.
-/

namespace LaunchDesk

namespace Bus

/-- A change of who is subscribed. -/
inductive Change (η : Type)
  | subscribe (kind : EventKind) (subscriber : η)
  | unsubscribe (id : SubscriptionId)

/-- What a bus answers to a change. -/
inductive Answer
  | given (id : SubscriptionId)
  | ended (id : SubscriptionId) (removed : Bool)

def Answer.given? : Answer → Option SubscriptionId
  | .given id => some id
  | .ended .. => none

def Answer.isRemoval : Answer → Bool
  | .given _ => false
  | .ended _ removed => removed

variable {η : Type} {b b' : Bus η} {h : List Answer} {id other : SubscriptionId}
variable {entries : List (SubscriptionId × η)} {kind : EventKind}

def change (b : Bus η) : Change η → Answer × Bus η
  | .subscribe kind subscriber =>
    (.given (b.subscribe kind subscriber).1, (b.subscribe kind subscriber).2)
  | .unsubscribe id => (.ended id (b.unsubscribe id).1, (b.unsubscribe id).2)

/-- The history that some changes make, and the bus after them. -/
def changes (b : Bus η) : List (Change η) → List Answer × Bus η
  | [] => ([], b)
  | c :: cs => ((b.change c).1 :: ((b.change c).2.changes cs).1, ((b.change c).2.changes cs).2)

theorem changes_append (b : Bus η) (cs ds : List (Change η)) :
    b.changes (cs ++ ds) = ((b.changes cs).1 ++ ((b.changes cs).2.changes ds).1,
      ((b.changes cs).2.changes ds).2) := by
  induction cs generalizing b with
  | nil => rfl
  | cons c cs ih => simp only [List.cons_append, changes, ih]

/-- The numbers that were given, in order. -/
def given (h : List Answer) : List SubscriptionId := h.filterMap Answer.given?

/-- How many subscriptions were ended. -/
def ended (h : List Answer) : Nat := h.countP Answer.isRemoval

theorem given_snoc (h : List Answer) (answer : Answer) :
    given (h ++ [answer]) = given h ++ answer.given?.toList := by
  cases answer <;> simp [given, Answer.given?]

theorem ended_snoc (h : List Answer) (answer : Answer) :
    ended (h ++ [answer]) = ended h + answer.isRemoval.toNat := by
  rw [ended, List.countP_append, List.countP_singleton]
  cases answer.isRemoval <;> rfl

/-- A number was given, and its subscription was not ended since. -/
def Stands (h : List Answer) (id : SubscriptionId) : Prop :=
  ∃ before after, h = before ++ .given id :: after ∧ .ended id true ∉ after

theorem not_stands_nil : ¬ Stands [] id := by
  rintro ⟨before, after, hsplit, -⟩
  simp at hsplit

theorem stands_snoc {answer : Answer} :
    Stands (h ++ [answer]) id ↔ answer = .given id ∨ Stands h id ∧ answer ≠ .ended id true := by
  constructor
  · rintro ⟨before, after, hsplit, hafter⟩
    rcases snoc_split hsplit with ⟨-, -, hgiven⟩ | ⟨later, rfl, rfl⟩
    · exact .inl hgiven
    · rw [List.mem_append, not_or, List.mem_singleton] at hafter
      exact .inr ⟨⟨before, later, rfl, hafter.1⟩, Ne.symm hafter.2⟩
  · rintro (rfl | ⟨⟨before, after, rfl, hafter⟩, hne⟩)
    · exact ⟨h, [], rfl, List.not_mem_nil⟩
    · refine ⟨before, after ++ [answer], by simp, ?_⟩
      rw [List.mem_append, not_or, List.mem_singleton]
      exact ⟨hafter, Ne.symm hne⟩

/-! ## Ending one subscription -/

/-- Someone is subscribed with this number. -/
def Lists (b : Bus η) (id : SubscriptionId) : Prop := ∃ kind, holds id (b.subscribed kind) = true

theorem holds_iff : holds id entries = true ↔ ∃ e ∈ entries, e.1 = id := by
  simp [holds]

theorem holds_without :
    holds other (without id entries) = true ↔ holds other entries = true ∧ other ≠ id := by
  simp only [holds_iff, without, List.mem_filter, bne_iff_ne]
  constructor
  · rintro ⟨e, ⟨he, hne⟩, rfl⟩
    exact ⟨⟨e, he, rfl⟩, hne⟩
  · rintro ⟨⟨e, he, rfl⟩, hne⟩
    exact ⟨e, ⟨he, hne⟩, rfl⟩

theorem without_split (hsorted : entries.Pairwise fun e e' => e.1 < e'.1)
    (hid : holds id entries = true) : ∃ earlier subscriber later,
      entries = earlier ++ (id, subscriber) :: later ∧ without id entries = earlier ++ later := by
  obtain ⟨⟨_, subscriber⟩, he, rfl⟩ := holds_iff.mp hid
  obtain ⟨earlier, later, rfl⟩ := List.append_of_mem he
  obtain ⟨-, hrest, hbefore⟩ := List.pairwise_append.mp hsorted
  have hearlier : without _ earlier = earlier := List.filter_eq_self.mpr fun e he => by
    simpa using Nat.ne_of_lt (hbefore e he _ List.mem_cons_self)
  have hlater : without _ later = later := List.filter_eq_self.mpr fun e he => by
    simpa using (Nat.ne_of_lt ((List.pairwise_cons.mp hrest).1 e he)).symm
  refine ⟨earlier, subscriber, later, rfl, ?_⟩
  rw [without] at hearlier hlater ⊢
  rw [List.filter_append, List.filter_cons_of_neg (by simp), hearlier, hlater]

theorem Ordered.holds_one (hb : b.Ordered) (hid : holds id (b.subscribed kind) = true)
    {another : EventKind} (hne : another ≠ kind) : holds id (b.subscribed another) = false := by
  refine eq_false_of_ne_true fun hother => hne ?_
  obtain ⟨e, he, hsame⟩ := holds_iff.mp hother
  obtain ⟨e', he', rfl⟩ := holds_iff.mp hid
  exact hb.apart another kind e e' he he' hsame

theorem unsubscribe_listed (hb : b.Ordered) (hid : b.Lists id) : (b.unsubscribe id).1 = true ∧
    ∀ kind, (b.unsubscribe id).2.subscribed kind = without id (b.subscribed kind) := by
  obtain ⟨kind, hkind⟩ := hid
  have hnot : ∀ another, another ≠ kind → ¬ holds id (b.subscribed another) = true :=
    fun another hne => Bool.eq_false_iff.mp (hb.holds_one hkind hne)
  have hkept : ∀ another, another ≠ kind → b.subscribed another =
      without id (b.subscribed another) :=
    fun another hne => (without_of_holds (hb.holds_one hkind hne)).symm
  -- The three lists are searched in turn, and the number is in one of them only.
  cases kind with
  | trade =>
    have heq : b.unsubscribe id = (true, { b with trades := without id b.trades }) := if_pos hkind
    rw [heq]
    refine ⟨rfl, fun another => ?_⟩
    cases another
    exacts [rfl, hkept .cycle nofun, hkept .stop nofun]
  | cycle =>
    have heq : b.unsubscribe id = (true, { b with cycles := without id b.cycles }) :=
      (if_neg (hnot .trade nofun)).trans (if_pos hkind)
    rw [heq]
    refine ⟨rfl, fun another => ?_⟩
    cases another
    exacts [hkept .trade nofun, rfl, hkept .stop nofun]
  | stop =>
    have heq : b.unsubscribe id = (true, { b with stops := without id b.stops }) :=
      (if_neg (hnot .trade nofun)).trans ((if_neg (hnot .cycle nofun)).trans (if_pos hkind))
    rw [heq]
    refine ⟨rfl, fun another => ?_⟩
    cases another
    exacts [hkept .trade nofun, hkept .cycle nofun, rfl]

theorem unsubscribe_unlisted (hid : ¬ b.Lists id) : b.unsubscribe id = (false, b) := by
  have hnot : ∀ kind, ¬ holds id (b.subscribed kind) = true := fun kind hkind => hid ⟨kind, hkind⟩
  exact (if_neg (hnot .trade)).trans ((if_neg (hnot .cycle)).trans (if_neg (hnot .stop)))

/-- The entry of a number is gone, and every other entry of any kind is in its place. -/
def Loses (b b' : Bus η) (id : SubscriptionId) : Prop :=
  b'.next = b.next ∧ ∃ kind earlier subscriber later,
    b.subscribed kind = earlier ++ (id, subscriber) :: later ∧
    b'.subscribed kind = earlier ++ later ∧
    ∀ another, another ≠ kind → b'.subscribed another = b.subscribed another

theorem loses_unsubscribe (hb : b.Ordered) (hid : b.Lists id) :
    Loses b (b.unsubscribe id).2 id := by
  have hwithout := (unsubscribe_listed hb hid).2
  obtain ⟨kind, hkind⟩ := hid
  obtain ⟨earlier, subscriber, later, hsplit, hrest⟩ := without_split (hb.sorted kind) hkind
  refine ⟨next_unsubscribe b id, kind, earlier, subscriber, later, hsplit, ?_, ?_⟩
  · rw [hwithout, hrest]
  · intro another hne
    rw [hwithout, without_of_holds (hb.holds_one hkind hne)]

theorem count_of_loses (h : Loses b b' id) : b'.count + 1 = b.count := by
  obtain ⟨-, kind, earlier, subscriber, later, hhere, hrest, hothers⟩ := h
  have hlength : ∀ another, (b'.subscribed another).length + (if another = kind then 1 else 0) =
      (b.subscribed another).length := by
    intro another
    split
    · next hkind =>
      rw [hkind, hhere, hrest, List.length_append, List.length_append, List.length_cons]
      omega
    · next hne => rw [hothers another hne, Nat.add_zero]
  have htrades := hlength .trade
  have hcycles := hlength .cycle
  have hstops := hlength .stop
  simp only [subscribed] at htrades hcycles hstops
  unfold count
  cases kind <;> simp at htrades hcycles hstops <;> omega

theorem count_subscribe (b : Bus η) (kind : EventKind) (s : η) :
    (b.subscribe kind s).2.count = b.count + 1 := by
  cases kind <;> simp only [subscribe, count, List.length_append, List.length_singleton] <;> omega

theorem lists_subscribe {s : η} :
    (b.subscribe kind s).2.Lists id ↔ b.Lists id ∨ b.next = id := by
  unfold Lists
  simp only [holds_iff, subscribed_subscribe]
  constructor
  · rintro ⟨another, e, he, rfl⟩
    rcases List.mem_append.mp he with hold | hnew
    · exact .inl ⟨another, e, hold, rfl⟩
    · split at hnew
      · exact .inr (congrArg Prod.fst (List.mem_singleton.mp hnew)).symm
      · cases hnew
  · rintro (⟨another, e, he, rfl⟩ | rfl)
    · exact ⟨another, e, List.mem_append_left _ he, rfl⟩
    · exact ⟨kind, (b.next, s), by simp, rfl⟩

theorem lists_unsubscribe (hb : b.Ordered) (hid : b.Lists id) :
    (b.unsubscribe id).2.Lists other ↔ b.Lists other ∧ other ≠ id := by
  unfold Lists
  simp only [(unsubscribe_listed hb hid).2, holds_without]
  exact exists_and_right

/-! ## History and bus -/

/-- A bus holds what stands in its history. -/
structure Kept (h : List Answer) (b : Bus η) : Prop where
  ordered : b.Ordered
  /-- Numbers are given from one on, and none is given twice. -/
  given : given h = List.range' 1 (given h).length
  next : b.next = (Bus.given h).length + 1
  listed : ∀ id, b.Lists id ↔ Stands h id
  /-- Whoever ends a subscription is told whether it stood. -/
  answered : ∀ before id removed after, h = before ++ .ended id removed :: after →
    (removed = true ↔ Stands before id)
  count : b.count + ended h = (Bus.given h).length

theorem kept_empty : Kept [] ({} : Bus η) where
  ordered := ordered_empty
  given := rfl
  next := rfl
  listed id := by
    refine iff_of_false ?_ not_stands_nil
    rintro ⟨kind, hkind⟩
    cases kind <;> cases hkind
  answered before id removed after hsplit := by simp at hsplit
  count := rfl

theorem Kept.answered_snoc (hk : Kept h b) {answer : Answer}
    (hlast : ∀ id removed, answer = .ended id removed → (removed = true ↔ Stands h id)) :
    ∀ before id removed after, h ++ [answer] = before ++ .ended id removed :: after →
      (removed = true ↔ Stands before id) := by
  intro before id removed after hsplit
  rcases snoc_split hsplit with ⟨-, rfl, heq⟩ | ⟨later, -, hbefore⟩
  · exact hlast id removed heq
  · exact hk.answered before id removed later hbefore

theorem Kept.subscribe (hk : Kept h b) (kind : EventKind) (s : η) :
    Kept (h ++ [.given b.next]) (b.subscribe kind s).2 := by
  have hgiven : Bus.given (h ++ [.given b.next]) = Bus.given h ++ [b.next] := given_snoc ..
  have hlength : (Bus.given (h ++ [.given b.next])).length = (Bus.given h).length + 1 := by
    rw [hgiven, List.length_append, List.length_singleton]
  exact {
    ordered := hk.ordered.subscribe kind s
    given := by rw [hlength, List.range'_1_concat, ← hk.given, hgiven, hk.next, Nat.add_comm 1]
    next := by rw [next_subscribe, hlength, hk.next]
    listed := fun id => by
      rw [lists_subscribe, stands_snoc, hk.listed, Answer.given.injEq, or_comm]
      exact or_congr_right (and_iff_left nofun).symm
    answered := hk.answered_snoc nofun
    count := by
      have hcount := hk.count
      rw [count_subscribe, hlength, ended_snoc, Answer.isRemoval, Bool.toNat_false]
      omega }

theorem Kept.unsubscribe (hk : Kept h b) (id : SubscriptionId) :
    Kept (h ++ [.ended id (b.unsubscribe id).1]) (b.unsubscribe id).2 := by
  have hgiven : ∀ removed, Bus.given (h ++ [.ended id removed]) = Bus.given h :=
    fun removed => (given_snoc h _).trans (List.append_nil _)
  -- What is listed is what stands, so the bus tells the truth, and changes only in the first case.
  by_cases hid : b.Lists id
  · rw [(unsubscribe_listed hk.ordered hid).1]
    exact {
      ordered := hk.ordered.unsubscribe id
      given := by rw [hgiven]; exact hk.given
      next := by rw [hgiven, next_unsubscribe]; exact hk.next
      listed := fun other => by
        rw [lists_unsubscribe hk.ordered hid, stands_snoc, hk.listed]
        simp [eq_comm]
      answered := hk.answered_snoc fun _ _ heq => by
        cases heq
        exact iff_of_true rfl ((hk.listed id).mp hid)
      count := by
        have hcount := hk.count
        have hone := count_of_loses (loses_unsubscribe hk.ordered hid)
        rw [hgiven, ended_snoc, Answer.isRemoval, Bool.toNat_true]
        omega }
  · rw [unsubscribe_unlisted hid]
    exact {
      ordered := hk.ordered
      given := by rw [hgiven]; exact hk.given
      next := by rw [hgiven]; exact hk.next
      listed := fun other => by
        rw [stands_snoc, hk.listed]
        simp
      answered := hk.answered_snoc fun _ _ heq => by
        cases heq
        exact iff_of_false Bool.false_ne_true fun hstands => hid ((hk.listed id).mpr hstands)
      count := by
        have hcount := hk.count
        rw [hgiven, ended_snoc, Answer.isRemoval, Bool.toNat_false]
        omega }

theorem Kept.change (hk : Kept h b) (c : Change η) :
    Kept (h ++ [(b.change c).1]) (b.change c).2 := by
  cases c with
  | subscribe kind subscriber => exact hk.subscribe kind subscriber
  | unsubscribe id => exact hk.unsubscribe id

theorem kept_changes (cs : List (Change η)) :
    Kept (({} : Bus η).changes cs).1 (({} : Bus η).changes cs).2 := by
  induction cs using List.reverseRecOn with
  | nil => exact kept_empty
  | append_singleton cs c ih =>
    rw [changes_append]
    exact ih.change c

/-- What comes of ending a subscription. -/
structure Ends (h : List Answer) (b : Bus η) (id : SubscriptionId) : Prop where
  answer : (b.unsubscribe id).1 = true ↔ Stands h id
  removes : Stands h id → Loses b (b.unsubscribe id).2 id
  otherwise : ¬ Stands h id → (b.unsubscribe id).2 = b

theorem Kept.ends (hk : Kept h b) (id : SubscriptionId) : Ends h b id := by
  by_cases hid : b.Lists id
  · have hstands := (hk.listed id).mp hid
    exact ⟨iff_of_true (unsubscribe_listed hk.ordered hid).1 hstands,
      fun _ => loses_unsubscribe hk.ordered hid, absurd hstands⟩
  · have hstands : ¬ Stands h id := fun hstands => hid ((hk.listed id).mpr hstands)
    have hsame := unsubscribe_unlisted hid
    exact ⟨iff_of_false (by simp [hsame]) hstands, fun hstood => absurd hstood hstands,
      fun _ => congrArg Prod.snd hsame⟩

/-- With these answers, some changes make the second bus of the first. -/
def Changes (b : Bus η) (h : List Answer) (b' : Bus η) : Prop := ∃ cs, b.changes cs = (h, b')

theorem Changes.none (b : Bus η) : Changes b [] b := ⟨[], rfl⟩

theorem Changes.trans {b'' : Bus η} {g : List Answer} (first : Changes b h b')
    (second : Changes b' g b'') : Changes b (h ++ g) b'' := by
  obtain ⟨cs, hfirst⟩ := first
  obtain ⟨ds, hsecond⟩ := second
  refine ⟨cs ++ ds, ?_⟩
  rw [changes_append, hfirst, hsecond]

end Bus

/-! ## The history of what subscribers do -/

mutual

/-- The answers of the bus during a delivery, in order of time. -/
def Delivery.answers : Delivery → List Bus.Answer
  | .mk _ calls => callsAnswers calls

def callsAnswers : List Call → List Bus.Answer
  | [] => []
  | .mk _ _ deeds :: rest => deedsAnswers deeds ++ callsAnswers rest

def deedsAnswers : List Deed → List Bus.Answer
  | [] => []
  | .subscribed id :: rest => .given id :: deedsAnswers rest
  | .unsubscribed id _ removed :: rest => .ended id removed :: deedsAnswers rest
  | .published d :: rest => d.answers ++ deedsAnswers rest

end

namespace Troupe

variable {t t' : Troupe}

theorem changes_subscribe (t : Troupe) (kind : EventKind) (label : String) (plays : Plays) :
    t.bus.Changes [.given (t.subscribe kind label plays).1] (t.subscribe kind label plays).2.bus :=
  ⟨[.subscribe kind label], rfl⟩

theorem changes_unsubscribe (t : Troupe) (id : SubscriptionId) :
    t.bus.Changes [.ended id (t.unsubscribe id).1] (t.unsubscribe id).2.bus :=
  ⟨[.unsubscribe id], rfl⟩

theorem changes_call {id : SubscriptionId} {h : List Bus.Answer} {b : Bus String}
    (hdone : (t.cue id).2.bus.Changes h b) : t.bus.Changes h b := bus_cue t id ▸ hdone

mutual

theorem Delivers.changes : ∀ {t t' : Troupe} {e : Event} {d : Delivery},
    Delivers t e d t' → t.bus.Changes d.answers t'.bus
  | _, _, _, _, .mk hcalls => hcalls.changes

theorem Calls.changes : ∀ {t t' : Troupe} {e : Event}
    {handlers : List (SubscriptionId × String)} {calls : List Call},
    Calls t e handlers calls t' → t.bus.Changes (callsAnswers calls) t'.bus
  | _, _, _, _, _, .done => .none _
  | _, _, _, _, _, .call hdoes hcalls => (changes_call hdoes.changes).trans hcalls.changes

theorem Does.changes : ∀ {t t' : Troupe} {acts : List Act} {deeds : List Deed},
    Does t acts deeds t' → t.bus.Changes (deedsAnswers deeds) t'.bus
  | _, _, _, _, .done => .none _
  | _, _, _, _, .subscribe hdoes => (changes_subscribe ..).trans hdoes.changes
  | _, _, _, _, .unsubscribe hdoes => (changes_unsubscribe ..).trans hdoes.changes
  | _, _, _, _, .publish hdelivers hdoes => hdelivers.changes.trans hdoes.changes

end

/-- What an act from outside has done. -/
def deed (t : Troupe) : Act → Deed
  | .subscribe kind label plays => .subscribed (t.subscribe kind label plays).1
  | .unsubscribe id => .unsubscribed id (t.bus.wasGiven id) (t.unsubscribe id).1
  | .publish e => .published (t.publish e).1

/-- What acts from outside have done, one after the other. -/
def deeds (t : Troupe) : List Act → List Deed
  | [] => []
  | act :: acts => t.deed act :: (t.after act).deeds acts

theorem Booked.does (ht : t.Booked) (acts : List Act) :
    Does t acts (t.deeds acts) (acts.foldl Troupe.after t) := by
  induction acts generalizing t with
  | nil => exact .done
  | cons act acts ih =>
    have hrest := ih (ht.after act)
    cases act with
    | subscribe kind label plays => exact .subscribe hrest
    | unsubscribe id => exact .unsubscribe hrest
    | publish e => exact .publish (delivers_publish ht e) hrest

/-- Whatever happens on a bus, no number is given twice, and the lists go by number. A subscription
is ended if and only if it stands, and then its entry goes and nothing else. There are as many
subscriptions as were given and not ended. The same is true of all that happens on the bus of a
troupe, while its subscribers are called too. -/
theorem every_history_is_kept :
    (∀ (η : Type) (cs : List (Bus.Change η)),
      let (h, b) := ({} : Bus η).changes cs
      (Bus.given h).Nodup ∧ (∀ kind, (b.subscribed kind).Pairwise fun e e' => e.1 < e'.1) ∧
        (∀ id, Bus.Ends h b id) ∧ b.count + Bus.ended h = (Bus.given h).length ∧ Bus.Kept h b) ∧
    ∀ acts, Does {} acts (deeds {} acts) (assemble acts) ∧
      ({} : Bus String).Changes (deedsAnswers (deeds {} acts)) (assemble acts).bus ∧
      Bus.Kept (deedsAnswers (deeds {} acts)) (assemble acts).bus := by
  constructor
  · intro η cs
    have hk := Bus.kept_changes cs
    refine ⟨?_, hk.ordered.sorted, hk.ends, hk.count, hk⟩
    rw [hk.given]
    exact List.nodup_range'
  · intro acts
    have hdoes := booked_empty.does acts
    refine ⟨hdoes, hdoes.changes, ?_⟩
    obtain ⟨cs, hcs⟩ := hdoes.changes
    have hk := Bus.kept_changes cs
    rw [hcs] at hk
    exact hk

/-- Who gives itself up twice in a call was there the first time only. -/
example :
    let once : Plays := [[.unsubscribe 1, .unsubscribe 1]]
    deedsAnswers (deeds {} [.subscribe .stop "once" once, .publish (.stop (.all .shutdown))]) =
      [.given 1, .ended 1 true, .ended 1 false] := by
  cbv

end Troupe

end LaunchDesk
