import LaunchDesk.Proofs.Session.Turns

/-!
# What a turn does to a desk

Whatever turn a session takes, whoever waits goes on waiting until the intake is as wished, and is
never left asleep while it is. Only runs ask for anything, and only a start breaks a seal.
-/

namespace LaunchDesk.Session

open Control (Sealed Rests)
open Desk (Upholds)

variable {s : Session} {d e f : Desk} {t : Trader} {k n : Nat} {turn : Turn}

def Turn.isStart : Turn → Bool
  | .move (.start _) => true
  | _ => false

/-- A run begins or gets a reply. -/
def Turn.isRun : Turn → Bool
  | .move (.begin _ _) => true
  | .move (.reply _ _ _) => true
  | _ => false

/-- Every waiter stays, and if it has what it waits for, it had it before or has it now. -/
def Awaits (d e : Desk) : Prop :=
  ∀ (n : Nat) (w : Waiter), d.waiters[n]? = some w → ∃ v : Waiter,
    e.waiters[n]? = some v ∧ v.goal = w.goal ∧
    (v.finished = true → w.finished = true ∨ w.goal.holds e.intake = true)

/-- What leads from `d` to `e` in a turn. -/
structure Leads (turn : Turn) (d e : Desk) : Prop where
  notes : d.notes <+: e.notes
  matched : d.intake.Matched → e.intake.Matched
  alert : d.Alert → e.Alert
  waiters : Awaits d e
  asks : turn.isRun = false → Desk.asks e.notes = Desk.asks d.notes
  rests : turn.isStart = false → Sealed d.control → Rests d.control e.control

/-! ## Waiting -/

theorem awaits_of_roll (h : e.waiters.map Waiter.entry = d.waiters.map Waiter.entry) :
    Awaits d e := by
  intro n w hw
  have hentry : (e.waiters.map Waiter.entry)[n]? = some w.entry := by
    rw [h, List.getElem?_map, hw]
    rfl
  rw [List.getElem?_map, Option.map_eq_some_iff] at hentry
  obtain ⟨v, hv, hsame⟩ := hentry
  simp only [Waiter.entry, Prod.mk.injEq] at hsame
  exact ⟨v, hv, hsame.1, fun hfinished => .inl (hsame.2.symm.trans hfinished)⟩

theorem awaits_wait (goal : Intake.Goal) (h : Awaits d e) : Awaits d (e.wait goal) := by
  intro n w hw
  obtain ⟨v, hv, hkept⟩ := h n w hw
  obtain ⟨hlt, -⟩ := List.getElem?_eq_some_iff.mp hv
  exact ⟨v, (List.getElem?_append_left hlt).trans hv, hkept⟩

theorem alert_wait (goal : Intake.Goal) (h : d.Alert) : (d.wait goal).Alert := by
  intro w hw hgoal
  rcases List.mem_append.mp hw with hw | hw
  · exact h w hw hgoal
  · obtain rfl := List.mem_singleton.mp hw
    cases hgoal
    by_cases hidle : d.intake.inProgress = 0
    · exact .inl (by simp [Waiter.start, Intake.Goal.holds, Intake.isIdle, hidle])
    · exact .inr (.inr hidle)

theorem look_cases (i : Intake) (w : Waiter) :
    w.look i = w ∨ w.look i = { w with woken := false, finished := w.goal.holds i } := by
  unfold Waiter.look
  split
  · exact .inr rfl
  · exact .inl rfl

theorem awaits_look (d : Desk) (waiter : Nat) :
    Awaits d { d with waiters := d.waiters.modify waiter (Waiter.look d.intake) } := by
  intro n w hw
  by_cases hn : waiter = n
  · subst hn
    refine ⟨w.look d.intake, by simp [hw], ?_⟩
    rcases look_cases d.intake w with hsame | hlooked
    · rw [hsame]
      exact ⟨rfl, .inl⟩
    · rw [hlooked]
      exact ⟨rfl, .inr⟩
  · exact ⟨w, by simp [hw, hn], rfl, .inl⟩

theorem alert_look (waiter : Nat) (h : d.Alert) :
    { d with waiters := d.waiters.modify waiter (Waiter.look d.intake) }.Alert := by
  intro v hv hgoal
  obtain ⟨n, hn⟩ := List.mem_iff_getElem?.mp hv
  simp only [List.getElem?_modify] at hn
  obtain ⟨w, hw, hlook⟩ := Option.map_eq_some_iff.mp hn
  have hmem := List.mem_of_getElem? hw
  have hkept : w.goal = .idle → w.finished = true ∨ w.woken = true ∨ d.intake.inProgress ≠ 0 :=
    h w hmem
  split at hlook
  · rcases look_cases d.intake w with hsame | hlooked
    · rw [hsame] at hlook
      exact hlook ▸ hkept (hlook ▸ hgoal)
    · rw [hlooked] at hlook
      subst hlook
      have hidle : w.goal = .idle := hgoal
      by_cases hbusy : d.intake.inProgress = 0
      · exact .inl (by simp [hidle, Intake.Goal.holds, Intake.isIdle, hbusy])
      · exact .inr (.inr hbusy)
  · exact hlook ▸ hkept (hlook ▸ hgoal)

/-! ## The steps of a turn -/

theorem leads_of_upholds (h : Upholds d e)
    (hrests : turn.isStart = false → Sealed d.control → Rests d.control e.control) :
    Leads turn d e :=
  ⟨h.notes, h.matched, h.alert, awaits_of_roll h.roll, fun _ => h.asks, hrests⟩

theorem leads_operate (op : Intake.Operation) (hop : turn.isStart = false → op.isStart = false) :
    Leads turn d (d.updateIntake (d.intake.perform op)) := by
  refine leads_of_upholds ((Upholds.refl d).updateIntake op) fun hstart hsealed => ?_
  rw [Desk.control_updateIntake]
  exact (Rests.refl hsealed).handle (hop hstart)

theorem leads_same (hnotes : e.notes = d.notes) (hintake : e.intake = d.intake)
    (hwaiters : e.waiters = d.waiters) (hoverseer : e.overseer = d.overseer) :
    Leads turn d e where
  notes := hnotes ▸ List.prefix_rfl
  matched := by
    rw [hintake]
    exact id
  alert := by
    unfold Desk.Alert
    rw [hwaiters, hintake]
    exact id
  waiters := awaits_of_roll (by rw [hwaiters])
  asks := fun _ => by rw [hnotes]
  rests := by
    intro _ hsealed
    have hcontrol : e.control = d.control := by
      simp only [Desk.control, hnotes, hintake, hoverseer]
    rw [hcontrol]
    exact .refl hsealed

theorem leads_prepare (change : Feed → Feed) (hchange : ∀ f, (change f).attached = f.attached) :
    Leads turn d { d with intake := d.intake.updateFeed change } where
  notes := List.prefix_rfl
  matched := fun h => (hchange _).trans h
  alert := id
  waiters := awaits_of_roll rfl
  asks := fun _ => rfl
  rests := fun _ h => ⟨⟨h.stopped, h.shut.heard, h.shut.forced, h.shut.silent,
    (hchange _).trans h.shut.detached⟩, rfl⟩

/-! ## Runs -/

/-- What a run does to a desk: whoever waits is where it was. -/
structure Steers (d e : Desk) : Prop where
  notes : d.notes <+: e.notes
  roll : e.waiters.map Waiter.entry = d.waiters.map Waiter.entry
  matched : d.intake.Matched → e.intake.Matched
  alert : d.Alert → e.Alert
  rests : Sealed d.control → Rests d.control e.control

theorem Steers.trans (h : Steers d e) (h' : Steers e f) : Steers d f where
  notes := h.notes.trans h'.notes
  roll := h'.roll.trans h.roll
  matched := h'.matched ∘ h.matched
  alert := h'.alert ∘ h.alert
  rests := fun hsealed => (h.rests hsealed).trans (h'.rests (h.rests hsealed).kept)

theorem Steers.leads (h : Steers d e) (hrun : turn.isRun = true) : Leads turn d e where
  notes := h.notes
  matched := h.matched
  alert := h.alert
  waiters := awaits_of_roll h.roll
  asks := by
    rw [hrun]
    exact nofun
  rests := fun _ => h.rests

theorem steers_lasting (h : ∀ P, Desk.LastingTrades P → P d → P e) : Steers d e := by
  have hupholds := h _ (Desk.lasting_upholds d) (.refl d)
  exact ⟨hupholds.notes, hupholds.roll, hupholds.matched, hupholds.alert, fun hsealed =>
    h _ (Desk.lasting_rests d.control) (.refl hsealed)⟩

theorem steers_note {n : Desk.Note} (hn : Workroom.admissions [n] = []) : Steers d (d.note n) where
  notes := List.prefix_append _ _
  roll := rfl
  matched := id
  alert := id
  rests := by
    intro hsealed
    refine ⟨⟨hsealed.stopped, hsealed.shut⟩, ?_⟩
    rw [Desk.control_note]
    simp only [hn, List.append_nil]

theorem steers_proceed {p : Run.Progress} :
    Steers d (s.proceed k (d.proceed k t p).1 (d.proceed k t p).2).desk := by
  have hcarried : Steers d (d.carryOut p.2).1 := steers_lasting fun _ h hd => h.carryOut p.2 hd
  rcases proceed_cases s k (rfl : (d.proceed k t p).2 = _) with
    ⟨request, -, hasks⟩ | ⟨e, ending, hconclude, hleaves⟩
  · rw [hasks]
    change Steers d (s.settle _).desk
    rw [desk_settle]
    exact hcarried.trans (steers_note rfl)
  · have hleft : Steers (d.carryOut p.2).1 ((d.carryOut p.2).1.leave (d.proceed k t p).2) :=
      ⟨List.prefix_rfl, rfl, id, id, .refl⟩
    have hconcluded := steers_lasting fun _ h hd => lasting_conclude h.toLasting hd hconclude
    rw [hleaves]
    change Steers d (s.settle _).desk
    rw [desk_settle]
    exact ((hcarried.trans hleft).trans hconcluded).trans (steers_note rfl)

theorem steers_beginning (s : Session) (now : Moment) (k : Nat) (opportunity : Opportunity) :
    Steers s.desk (s.proceed k (s.beginning now k opportunity).1
      (s.beginning now k opportunity).2).desk := by
  have hlogged : Steers s.desk (s.heralded k opportunity) := steers_note rfl
  have hmanned : Steers (s.heralded k opportunity)
      ((s.heralded k opportunity).manned k (s.plan k opportunity).botId) :=
    ⟨List.prefix_rfl, rfl, id, id, .refl⟩
  exact (hlogged.trans hmanned).trans steers_proceed

/-! ## Every turn -/

theorem letGo_desk (s : Session) :
    ∃ b, s.letGo.desk = { s.desk with bus := b, overseer := none } := by
  have hleft : ∀ (ids : List SubscriptionId) (d : Desk),
      ∃ b, ids.foldl Desk.unsubscribe d = { d with bus := b } := by
    intro ids
    induction ids with
    | nil => exact fun d => ⟨d.bus, rfl⟩
    | cons id ids ih =>
      intro d
      obtain ⟨b, hb⟩ := ih (d.unsubscribe id)
      exact ⟨b, hb⟩
  unfold letGo Desk.dismiss
  cases s.walletId with
  | none =>
    obtain ⟨b, hb⟩ := hleft s.overseerIds s.desk
    exact ⟨b, by simp only [Option.elim_none, hb]⟩
  | some id =>
    obtain ⟨b, hb⟩ := hleft s.overseerIds (s.desk.unsubscribe id)
    refine ⟨b, ?_⟩
    simp only [Option.elim_some, hb]
    rfl

theorem Move.Operates.isStart_eq {move : Move} {op : Intake.Operation} (hop : move.Operates op) :
    (Turn.move move).isStart = op.isStart := by
  cases hop <;> rfl

theorem leads_take (s : Session) (turn : Turn) : Leads turn s.desk (s.take turn).desk := by
  have hsame : Leads turn s.desk s.desk := leads_same rfl rfl rfl rfl
  have hlogged : ∀ line, Leads turn s.desk (s.desk.log line) := fun line =>
    leads_of_upholds ((Upholds.refl s.desk).note rfl) fun _ => (steers_note rfl).rests
  have hsettled : ∀ {d}, Leads turn s.desk d → Leads turn s.desk (s.settle d).desk := fun h => by
    rwa [desk_settle]
  have hbecomes := becomes_take s turn
  generalize s.take turn = v at hbecomes ⊢
  cases hbecomes with
  | idle => exact hsame
  | @operates move op hop =>
    exact hsettled (leads_operate op fun hstart => hop.isStart_eq.symm.trans hstart)
  | prepares change hchange => exact leads_prepare change hchange
  | begins hk hstart => exact (steers_beginning ..).leads rfl
  | refuses hk => exact hsettled (((steers_note rfl).trans (steers_note rfl)).leads rfl)
  | replies hk => exact steers_proceed.leads rfl
  | @vacates k ending hk => exact hsettled (leads_operate (.finish k ending) fun _ => rfl)
  | pays hdesk =>
    obtain rfl | ⟨line, rfl⟩ := hdesk
    · exact hsame
    · exact hlogged line
  | waits goal =>
    exact ⟨List.prefix_rfl, id, alert_wait goal, awaits_wait goal (awaits_of_roll rfl),
      fun _ => rfl, fun _ => .refl⟩
  | shutsDown =>
    have hupholds := (Desk.lasting_upholds _).stopAll .shutdown none (.refl s.desk)
    have hrests := fun hsealed =>
      (Desk.lasting_rests s.desk.control).stopAll .shutdown none (.refl hsealed)
    change Leads _ s.desk ((s.settle _).desk.wait .idle)
    rw [desk_settle]
    exact ⟨hupholds.notes, hupholds.matched, fun h => alert_wait .idle (hupholds.alert h),
      awaits_wait .idle (awaits_of_roll hupholds.roll), fun _ => hupholds.asks, fun _ => hrests⟩
  | hasShutDown line => exact hlogged line
  | publishes event =>
    exact hsettled (leads_of_upholds ((Desk.lasting_upholds _).publish event (.refl _))
      fun _ hsealed => (Desk.lasting_rests _).publish event (.refl hsealed))
  | enlists kind => exact leads_same rfl rfl rfl rfl
  | looks waiter =>
    exact ⟨List.prefix_rfl, id, alert_look waiter, awaits_look s.desk waiter, fun _ => rfl,
      fun _ => .refl⟩
  | letsGo =>
    obtain ⟨b, hdesk⟩ := letGo_desk s
    rw [hdesk]
    -- Without an overseer nobody can start the intake, so a seal cannot break.
    exact ⟨List.prefix_rfl, id, id, awaits_of_roll rfl, fun _ => rfl,
      fun _ h => ⟨⟨nofun, h.shut⟩, rfl⟩⟩

end LaunchDesk.Session
