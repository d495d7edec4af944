import LaunchDesk.Desk.Trader
import LaunchDesk.Proofs.Desk.Sealed

/-!
# What events leave alone

Whoever is subscribed, an event comes down to a few elementary changes of a desk: lines and events
are noted, machines are cancelled, the overseer counts, and the intake is stopped or started. What
all of these keep is kept by every event, and `Lasting` says what that takes.
-/

namespace LaunchDesk

namespace Overseer

variable {p : Overseer}

theorem not_mem_tradeReactions {bot : BotId} {side : Side} (h : p.resumes = false) :
    Reaction.startIntake ∉ p.tradeReactions bot side := by
  simp only [tradeReactions, h, Bool.false_eq_true, if_false, List.append_nil]
  split <;> split <;> simp

theorem not_mem_onCycle (o : Overseer) (bot : BotId) (outcome : Outcome) :
    Reaction.startIntake ∉ (o.onCycle bot outcome).2 := by
  unfold onCycle
  simp only
  split <;> simp

end Overseer

namespace Desk

variable {P : Desk → Prop} {d e : Desk} {o p : Overseer}

/-- Lines for the log and events that a recorder was told of. -/
def Note.isPlain : Note → Bool
  | .log _ => true
  | .recorded _ => true
  | _ => false

/-- `P` outlasts every elementary change that follows from an event, those of a trade apart. An
overseer that has stopped everything stays so, and starts nothing. -/
structure Lasting (P : Desk → Prop) : Prop where
  note : ∀ {d} {n : Note}, n.isPlain = true → P d → P (d.note n)
  cancel : ∀ {d} (m : Nat), P d → P (d.updateMachine m fun s => { s with cancelled := true })
  oversee : ∀ {d} {o p : Overseer}, d.overseer = some o → (o.stopped = true → p.stopped = true) →
    p.balance = o.balance → P d → P { d with overseer := some p }
  stop : ∀ {d}, P d → P (d.updateIntake (d.intake.stop true))
  start : ∀ {d} {o : Overseer}, d.overseer = some o → o.stopped = false → P d →
    P (d.updateIntake (d.intake.start true).1)

/-- `P` outlasts what a trade changes as well, the count of the overseer and the wallet. -/
structure LastingTrades (P : Desk → Prop) : Prop extends Lasting P where
  count : ∀ {d} {o p : Overseer}, d.overseer = some o → (o.stopped = true → p.stopped = true) →
    P d → P { d with overseer := some p }
  owed : ∀ {d} (amount : Decimal), P d → P (d.note (.owed amount))

namespace Lasting

variable (h : Lasting P)
include h

theorem log (line : Log.Line) (hd : P d) : P (d.log line) := h.note rfl hd

/-! ## Stop requests -/

theorem tellStop (request : StopRequest) (s : Subscriber) (hd : P d) :
    P (Desk.tellStop request d s) := by
  cases s with
  | recorder => exact h.note rfl hd
  | wallet => exact hd
  | run m bot =>
    simp only [Desk.tellStop, tellRun]
    split
    · exact h.log _ (h.cancel m hd)
    · exact hd
  | overseer =>
    simp only [Desk.tellStop, tellOverseer]
    split
    · exact hd
    · next o ho =>
      have hbalance := congrArg Ledger.balance (Overseer.onStop_ledger o request)
      exact h.stop (h.log _ (h.oversee ho (Control.stopped_onStop request) hbalance hd))

theorem publishStop (request : StopRequest) (hd : P d) : P (d.publishStop request) :=
  List.foldlRecOn d.bus.stops _ (h.log _ hd) fun _ hd e _ => h.tellStop request e.2 hd

theorem stopAll (reason : StopReason) (exclude : Option BotId) (hd : P d) :
    P (d.stopAll reason exclude) := h.publishStop _ (h.log _ hd)

/-! ## The overseer's reactions -/

theorem foldl_obey {reactions : List Overseer.Reaction} (hquiet : .startIntake ∉ reactions)
    (hd : P d) : P (reactions.foldl obey d) :=
  List.foldlRecOn reactions _ hd fun _ hd reaction hmem => by
    cases reaction with
    | log line => exact h.log line hd
    | request request => exact h.publishStop request hd
    | startIntake => exact absurd hmem hquiet

theorem obey_start (ho : d.overseer = some o) (hgoing : o.stopped = false) (hd : P d) :
    P (d.obey .startIntake) := by
  have hstarted := h.start ho hgoing hd
  simp only [obey]
  generalize d.intake.start true = result at hstarted
  obtain ⟨i, _ | fault⟩ := result
  · exact hstarted
  · exact h.log _ hstarted

/-- What holds when the overseer has counted a trade holds after all that it does about it. -/
theorem consult_trade {side : Side} (bot : BotId)
    (hcounted : P { d with overseer := some (p.afterTrade side) }) :
    P (d.consult (p.afterTrade side, p.tradeReactions bot side)) := by
  cases hresumes : p.resumes with
  | false => exact h.foldl_obey (Overseer.not_mem_tradeReactions hresumes) hcounted
  | true =>
    have hgoing : p.stopped = false := by
      simp only [Overseer.resumes, Bool.and_eq_true, Bool.not_eq_true'] at hresumes
      exact hresumes.2
    have hpauses : p.pauses side = false := by
      refine eq_false_of_ne_true fun hp => ?_
      rw [Overseer.resumes_eq_false_of_pauses hp] at hresumes
      cases hresumes
    unfold consult Overseer.tradeReactions
    rw [hpauses, hresumes, List.foldl_append]
    refine h.foldl_obey (by split <;> simp) ?_
    -- The start comes before the stop, when nobody has stopped anything yet.
    exact h.obey_start (o := p.afterTrade side) rfl hgoing (h.log _ (h.log _ hcounted))

theorem consult_cycle (bot : BotId) (outcome : Outcome) (ho : d.overseer = some o) (hd : P d) :
    P (d.consult (o.onCycle bot outcome)) :=
  h.foldl_obey (Overseer.not_mem_onCycle o bot outcome) (h.oversee ho id rfl hd)

/-! ## Events -/

theorem publishCycle (bot : BotId) (outcome : Outcome) (hd : P d) :
    P (d.publishCycle bot outcome) :=
  List.foldlRecOn d.bus.cycles _ (h.log _ hd) fun d hd e _ => by
    obtain ⟨id, s⟩ := e
    cases s with
    | recorder => exact h.note rfl hd
    | wallet => exact hd
    | run m bot => exact hd
    | overseer =>
      simp only [tellCycle]
      split
      · exact hd
      · next o ho => exact h.consult_cycle bot outcome ho hd

end Lasting

namespace LastingTrades

variable (h : LastingTrades P)
include h

theorem tellTrade {bot : BotId} {fill : Fill} {s : Subscriber} (hd : P d)
    (htold : Desk.tellTrade bot fill d s = .ok e) : P e := by
  cases s with
  | recorder =>
    cases htold
    exact h.note rfl hd
  | wallet =>
    cases htold
    exact h.owed _ hd
  | run m bot =>
    cases htold
    exact hd
  | overseer =>
    simp only [Desk.tellTrade] at htold
    split at htold
    · cases htold
      exact hd
    · next o ho =>
      rw [Overseer.onTrade_eq] at htold
      cases hcount : o.count fill with
      | error fault =>
        rw [hcount] at htold
        cases htold
      | ok p =>
        rw [hcount] at htold
        cases htold
        have hstopped : p.stopped = o.stopped := (Overseer.count_spec hcount).2.1
        exact h.consult_trade bot (h.count ho (fun hs => hstopped.trans hs) hd)

theorem publishTrade (bot : BotId) (fill : Fill) (hd : P d) : P (d.publishTrade bot fill).1 := by
  have htold : ∀ (entries : List (SubscriptionId × Subscriber)) (d : Desk), P d →
      P (tellTrades bot fill d entries).1 := by
    intro entries
    induction entries with
    | nil => exact fun d hd => hd
    | cons entry entries ih =>
      intro d hd
      unfold tellTrades
      split
      · next e heq => exact ih e (h.tellTrade hd heq)
      · exact hd
  exact htold d.bus.trades _ (h.log _ hd)

theorem publish (event : Event) (hd : P d) : P (d.publish event).1 := by
  cases event with
  | trade bot fill => exact h.publishTrade bot fill hd
  | cycle bot outcome => exact h.publishCycle bot outcome hd
  | stop request => exact h.publishStop request hd

theorem carryOut (notices : List Run.Notice) (hd : P d) : P (d.carryOut notices).1 := by
  induction notices generalizing d with
  | nil => exact hd
  | cons notice notices ih =>
    cases notice with
    | log line => exact ih (h.log line hd)
    | publish event =>
      have hpublished := h.publish event hd
      simp only [Desk.carryOut]
      split
      · next e heq =>
        rw [heq] at hpublished
        exact ih hpublished
      · next e fault heq =>
        rw [heq] at hpublished
        exact hpublished

end LastingTrades

/-! ## What a seal keeps -/

theorem control_of_isPlain {n : Note} (hn : n.isPlain = true) :
    (d.note n).control.overseer = d.control.overseer ∧
      (d.note n).control.intake = d.control.intake ∧
      (d.note n).control.admissions = d.control.admissions := by
  rw [control_note]
  refine ⟨rfl, rfl, ?_⟩
  cases n with
  | log line => exact List.append_nil _
  | recorded event => exact List.append_nil _
  | _ => cases hn

/-- No event breaks a seal, for it does not start the intake of a stopped overseer. -/
theorem lasting_rests (c : Control) : LastingTrades fun d => Control.Rests c d.control where
  note := by
    intro d n hn h
    obtain ⟨hoverseer, hintake, hadmissions⟩ := control_of_isPlain (d := d) hn
    refine ⟨⟨?_, ?_⟩, hadmissions.trans h.admissions⟩
    · rw [hoverseer]
      exact h.kept.stopped
    · rw [hintake]
      exact h.kept.shut
  cancel := fun _ h => h
  oversee := fun ho hstopped _ h => h.replace (hstopped (h.kept.stopped _ ho))
  stop := by
    intro d h
    change Control.Rests c (d.updateIntake (d.intake.perform (.stop true))).control
    rw [control_updateIntake]
    exact h.handle rfl
  start := by
    intro d o ho hgoing h
    rw [h.kept.stopped o ho] at hgoing
    cases hgoing
  count := fun ho hstopped h => h.replace (hstopped (h.kept.stopped _ ho))
  owed := by
    intro d amount h
    refine ⟨⟨h.kept.stopped, h.kept.shut⟩, ?_⟩
    rw [control_note]
    exact (List.append_nil _).trans h.admissions

/-- A stop for everyone that the overseer hears of first seals the control, whoever else hears of
it. -/
theorem sealed_publishStop {request : StopRequest} {id : SubscriptionId}
    {others : List (SubscriptionId × Subscriber)} (ho : d.overseer = some o)
    (hm : d.intake.Matched) (hrequest : request.isScoped = false)
    (hstops : d.bus.stops = (id, .overseer) :: others) :
    Control.Sealed (d.publishStop request).control := by
  let heeded := (d.log (Event.stop request).logLine).tellOverseer request
  have hheeded : Control.Sealed heeded.control := by
    rw [control_tellOverseer, control_log]
    simp only [Control.heed, control, ho]
    refine ⟨?_, Intake.shut_stop hm⟩
    rintro _ ⟨⟩
    simp [Overseer.onStop, hrequest]
  unfold publishStop
  rw [hstops, List.foldl_cons]
  have hrest : Control.Rests heeded.control
      (others.foldl (fun d e => tellStop request d e.2) heeded).control :=
    List.foldlRecOn (motive := fun e : Desk => Control.Rests heeded.control e.control) others _
      (.refl hheeded) fun _ hd e _ => (lasting_rests heeded.control).tellStop request e.2 hd
  exact hrest.kept

end Desk

end LaunchDesk
