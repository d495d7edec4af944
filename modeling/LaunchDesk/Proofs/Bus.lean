import LaunchDesk.Bus

/-!
# Subscriptions

Subscriptions of every kind are numbered one after the other, so nobody has the next number yet,
each number belongs to one kind, and the list of a kind goes by number. A subscription to stop
requests alone is given up in their list.
-/

namespace LaunchDesk.Bus

variable {η : Type} {b : Bus η} {entries : List (SubscriptionId × η)} {id n : SubscriptionId}

theorem holds_of_lt (h : ∀ e ∈ entries, e.1 < n) : holds n entries = false := by
  refine List.any_eq_false.mpr fun e he => ?_
  simpa using Nat.ne_of_lt (h e he)

theorem holds_snoc (s : η) (h : holds id entries = false) (hlt : id < n) :
    holds id (entries ++ [(n, s)]) = false := by
  rw [holds, List.any_append]
  simp only [holds] at h
  simp [h, (Nat.ne_of_lt hlt).symm]

theorem without_of_holds (h : holds id entries = false) : without id entries = entries := by
  refine List.filter_eq_self.mpr fun e he => ?_
  simpa using List.any_eq_false.mp h e he

theorem numbered_subscribe (h : ∀ kind, ∀ e ∈ b.subscribed kind, e.1 < b.next) (kind : EventKind)
    (s : η) : ∀ other, ∀ e ∈ (b.subscribe kind s).2.subscribed other, e.1 < b.next + 1 := by
  intro other e he
  have hold : ∀ list, e ∈ list ++ [(b.next, s)] → (∀ e ∈ list, e.1 < b.next) →
      e.1 < b.next + 1 := by
    intro list hmem hlist
    rcases List.mem_append.mp hmem with hmem | hmem
    · exact Nat.lt_succ_of_lt (hlist e hmem)
    · obtain rfl := List.mem_singleton.mp hmem
      exact Nat.lt_succ_self _
  have hlist := h other
  cases kind <;> cases other <;>
    first
      | exact hold _ he hlist
      | exact Nat.lt_succ_of_lt (hlist e he)

theorem unsubscribe_stops (htrades : holds id b.trades = false)
    (hcycles : holds id b.cycles = false) :
    (b.unsubscribe id).2 = { b with stops := without id b.stops } := by
  simp only [unsubscribe, htrades, hcycles, Bool.false_eq_true, if_false]
  split
  · rfl
  · next hstop => rw [without_of_holds (eq_false_of_ne_true hstop)]

theorem unsubscribe_newcomer (h : ∀ kind, ∀ e ∈ b.subscribed kind, e.1 < id) (next : Nat) (s : η) :
    ({ b with next := next, stops := b.stops ++ [(id, s)] } : Bus η).unsubscribe id =
      (true, { b with next := next }) := by
  have hholds : holds id (b.stops ++ [(id, s)]) = true := by simp [holds]
  have hwithout : without id (b.stops ++ [(id, s)]) = b.stops := by
    have hothers : without id b.stops = b.stops := without_of_holds (holds_of_lt (h .stop))
    rw [without] at hothers ⊢
    rw [List.filter_append, hothers]
    simp
  have htrades : holds id b.trades = false := holds_of_lt (h .trade)
  have hcycles : holds id b.cycles = false := holds_of_lt (h .cycle)
  simp only [unsubscribe, htrades, hcycles, hholds, hwithout, Bool.false_eq_true, if_false, if_true]

/-! ## What is subscribed to each kind -/

theorem subscribed_subscribe (b : Bus η) (kind : EventKind) (s : η) (other : EventKind) :
    (b.subscribe kind s).2.subscribed other =
      b.subscribed other ++ if other = kind then [(b.next, s)] else [] := by
  cases kind <;> cases other <;> simp [subscribe, subscribed]

theorem next_subscribe (b : Bus η) (kind : EventKind) (s : η) :
    (b.subscribe kind s).2.next = b.next + 1 := by
  cases kind <;> rfl

theorem next_unsubscribe (b : Bus η) (id : SubscriptionId) :
    (b.unsubscribe id).2.next = b.next := by
  unfold unsubscribe
  split
  · rfl
  split
  · rfl
  split <;> rfl

theorem subscribed_unsubscribe_cases (b : Bus η) (id : SubscriptionId) (kind : EventKind) :
    (b.unsubscribe id).2.subscribed kind = b.subscribed kind ∨
      (b.unsubscribe id).2.subscribed kind = without id (b.subscribed kind) := by
  unfold unsubscribe
  split
  · cases kind <;> simp [subscribed]
  split
  · cases kind <;> simp [subscribed]
  split <;> cases kind <;> simp [subscribed]

theorem subscribed_unsubscribe (b : Bus η) (id : SubscriptionId) (kind : EventKind) :
    ((b.unsubscribe id).2.subscribed kind).Sublist (b.subscribed kind) := by
  rcases subscribed_unsubscribe_cases b id kind with hsame | hwithout
  · exact hsame ▸ List.Sublist.refl _
  · rw [hwithout]
    exact List.filter_sublist

theorem subscribed_unsubscribe_append {kind : EventKind} {front others : List (SubscriptionId × η)}
    (hlist : b.subscribed kind = front ++ others) (hfront : holds id front = false) :
    ∃ rest, (b.unsubscribe id).2.subscribed kind = front ++ rest ∧ ∀ e ∈ rest, e ∈ others := by
  rcases subscribed_unsubscribe_cases b id kind with hsame | hwithout
  · exact ⟨others, hsame.trans hlist, fun e he => he⟩
  · refine ⟨without id others, ?_, fun e he => (List.mem_filter.mp he).1⟩
    rw [hwithout, hlist, without, List.filter_append]
    exact congrArg (· ++ _) (without_of_holds hfront)

/-- Every number was given once: the list of a kind goes by number, below the next one, and no two
kinds have a number in common. -/
structure Ordered (b : Bus η) : Prop where
  numbered : ∀ kind, ∀ e ∈ b.subscribed kind, e.1 < b.next
  sorted : ∀ kind, (b.subscribed kind).Pairwise fun e e' => e.1 < e'.1
  apart : ∀ kind other e e', e ∈ b.subscribed kind → e' ∈ b.subscribed other → e.1 = e'.1 →
    kind = other

theorem ordered_empty : Ordered ({} : Bus η) where
  numbered kind e he := by cases kind <;> cases he
  sorted kind := by cases kind <;> exact .nil
  apart kind other e e' he := by cases kind <;> cases he

theorem mem_subscribe {kind other : EventKind} {s : η} {e : SubscriptionId × η}
    (he : e ∈ (b.subscribe kind s).2.subscribed other) :
    e ∈ b.subscribed other ∨ other = kind ∧ e = (b.next, s) := by
  rw [subscribed_subscribe] at he
  rcases List.mem_append.mp he with hold | hnew
  · exact .inl hold
  · split at hnew
    · next hkind => exact .inr ⟨hkind, List.mem_singleton.mp hnew⟩
    · cases hnew

theorem Ordered.subscribe (h : b.Ordered) (kind : EventKind) (s : η) :
    (b.subscribe kind s).2.Ordered where
  numbered := by
    rw [next_subscribe]
    exact numbered_subscribe h.numbered kind s
  sorted other := by
    rw [subscribed_subscribe, List.pairwise_append]
    refine ⟨h.sorted other, ?_, fun e he e' he' => ?_⟩
    · split
      · exact List.pairwise_singleton ..
      · exact .nil
    · split at he'
      · obtain rfl := List.mem_singleton.mp he'
        exact h.numbered other e he
      · cases he'
  apart first second e e' he he' hid := by
    rcases mem_subscribe he with hold | ⟨rfl, rfl⟩
    · rcases mem_subscribe he' with hold' | ⟨rfl, rfl⟩
      · exact h.apart first second e e' hold hold' hid
      · exact absurd hid (Nat.ne_of_lt (h.numbered first e hold))
    · rcases mem_subscribe he' with hold' | ⟨rfl, rfl⟩
      · exact absurd hid.symm (Nat.ne_of_lt (h.numbered second e' hold'))
      · rfl

theorem Ordered.unsubscribe (h : b.Ordered) (id : SubscriptionId) :
    (b.unsubscribe id).2.Ordered where
  numbered kind e he := by
    rw [next_unsubscribe]
    exact h.numbered kind e ((subscribed_unsubscribe b id kind).subset he)
  sorted kind := (h.sorted kind).sublist (subscribed_unsubscribe b id kind)
  apart kind other e e' he he' :=
    h.apart kind other e e' ((subscribed_unsubscribe b id kind).subset he)
      ((subscribed_unsubscribe b id other).subset he')

end LaunchDesk.Bus
