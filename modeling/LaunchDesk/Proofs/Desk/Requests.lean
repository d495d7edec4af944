import LaunchDesk.Desk.Trader
import LaunchDesk.Proofs.Desk.Reactions
import LaunchDesk.Proofs.Run.Published

/-!
# Who heeds a request

A stop request reaches everyone who is subscribed when it is published: a recorder notes it, and the
runs that it is about have their machines cancelled. Nothing else cancels a machine while events are
handed out. `Broadcasts` says so of any part of that, with the requests that are published in it.
-/

namespace LaunchDesk

theorem StopRequest.appliesTo_iff (request : StopRequest) (bot : BotId) :
    request.appliesTo bot = true ↔ ∃ excluded, request.scope = .all excluded ∧ bot ∉ excluded := by
  unfold appliesTo
  cases request.scope with
  | intake => simp
  | all excluded => simp

namespace Overseer

def Reaction.request? : Reaction → Option StopRequest
  | .request r => some r
  | _ => none

theorem requests_tradeReactions (o : Overseer) (bot : BotId) (side : Side) :
    (o.tradeReactions bot side).filterMap Reaction.request? = Control.asksAfterTrade o side := by
  unfold tradeReactions Control.asksAfterTrade
  cases o.pauses side <;> cases o.resumes <;> cases o.stopsForBalance <;> rfl

theorem requests_onTrade {o : Overseer} {bot : BotId} {fill : Fill}
    {next : Overseer × List Reaction} (h : o.onTrade bot fill = .ok next) :
    ∀ r ∈ next.2.filterMap Reaction.request?, r ∈ ownRequests := by
  rw [onTrade_eq] at h
  cases hcount : o.count fill with
  | error fault =>
    rw [hcount] at h
    cases h
  | ok p =>
    rw [hcount] at h
    cases h
    rw [requests_tradeReactions]
    exact (Control.asksAfterTrade_spec p fill.side).2.1

theorem requests_onCycle (o : Overseer) (bot : BotId) (outcome : Outcome) :
    ∀ r ∈ (o.onCycle bot outcome).2.filterMap Reaction.request?, r ∈ ownRequests := by
  unfold onCycle
  simp only
  cases { o with completedTrades := o.completedTrades + 1 }.stopsForTrades with
  | true =>
    intro r hr
    obtain rfl := List.mem_singleton.mp hr
    decide
  | false => exact fun r hr => nomatch hr

end Overseer

namespace Desk

variable {d e f : Desk} {requests further : List StopRequest} {request : StopRequest}
variable {entries : List (SubscriptionId × Subscriber)}

/-! ## Broadcasts -/

/-- The run of a bot on a machine is among subscribers. -/
def Lists (entries : List (SubscriptionId × Subscriber)) (m : Nat) (bot : BotId) : Prop :=
  ∃ id, (id, .run m bot) ∈ entries

/-- How often a recorder is among subscribers. -/
def recorders (entries : List (SubscriptionId × Subscriber)) : Nat :=
  entries.countP fun e => e.2 = .recorder

theorem listeners_without {id : SubscriptionId} (h : ∀ e ∈ entries, e.2 = .recorder → e.1 ≠ id) :
    (Bus.without id entries).filter (·.2 = .recorder) = entries.filter (·.2 = .recorder) := by
  rw [Bus.without, List.filter_filter]
  refine List.filter_congr fun e he => ?_
  by_cases hrecorder : e.2 = .recorder
  · simp [hrecorder, h e he hrecorder]
  · simp [hrecorder]

theorem recorders_without {id : SubscriptionId} (h : ∀ e ∈ entries, e.2 = .recorder → e.1 ≠ id) :
    recorders (Bus.without id entries) = recorders entries := by
  simp only [recorders, List.countP_eq_length_filter, listeners_without h]

/-- A machine is cancelled, or a run that is subscribed on it is asked to stop. -/
def Cancels (d : Desk) (requests : List StopRequest) (m : Nat) : Prop :=
  (d.machines m).cancelled = true ∨
    ∃ request ∈ requests, ∃ bot, Lists d.bus.stops m bot ∧ request.appliesTo bot = true

/-- `e` comes from `d` by what is done when `requests` are published, one after the other; each
recorder is told of each of them. -/
structure Broadcasts (d e : Desk) (requests : List StopRequest) : Prop where
  bus : e.bus = d.bus
  overseer : e.overseer.isSome = d.overseer.isSome
  running : ∀ m, (e.machines m).running = (d.machines m).running
  cancelled : ∀ m, (e.machines m).cancelled = true ↔ d.Cancels requests m
  told : Desk.requests e.notes =
    Desk.requests d.notes ++ requests.flatMap (List.replicate (recorders d.bus.stops))

/-- What follows from an event that is no request of its own. -/
def Answers (d e : Desk) : Prop :=
  ∃ requests, Broadcasts d e requests ∧ ∀ r ∈ requests, r ∈ Overseer.ownRequests

namespace Broadcasts

theorem refl (d : Desk) : Broadcasts d d [] where
  bus := rfl
  overseer := rfl
  running _ := rfl
  cancelled m := by simp [Cancels]
  told := (List.append_nil _).symm

theorem trans (h : Broadcasts d e requests) (h' : Broadcasts e f further) :
    Broadcasts d f (requests ++ further) where
  bus := h'.bus.trans h.bus
  overseer := h'.overseer.trans h.overseer
  running m := (h'.running m).trans (h.running m)
  cancelled m := by
    rw [h'.cancelled, Cancels, h.cancelled, h.bus, Cancels, Cancels, or_assoc]
    simp [or_and_right, exists_or]
  told := by rw [h'.told, h.told, h.bus, List.flatMap_append, List.append_assoc]

/-- A single recorder is told of everything once. -/
theorem told_once (h : Broadcasts d e requests) (hone : recorders d.bus.stops = 1) :
    Desk.requests e.notes = Desk.requests d.notes ++ requests := by
  rw [h.told, hone]
  exact congrArg _ (List.flatMap_singleton' requests)

theorem quiet_trans (h : Broadcasts d e []) (h' : Broadcasts e f requests) :
    Broadcasts d f requests := h.trans h'

theorem of_same {more : List Note} (hbus : e.bus = d.bus)
    (hoverseer : e.overseer.isSome = d.overseer.isSome) (hmachines : e.machines = d.machines)
    (hnotes : e.notes = d.notes ++ more) (hmore : Desk.requests more = []) :
    Broadcasts d e [] where
  bus := hbus
  overseer := hoverseer
  running m := by rw [hmachines]
  cancelled m := by simp [Cancels, hmachines]
  told := by rw [hnotes, requests_append, hmore]; rfl

theorem note {n : Note} (d : Desk) (hn : Desk.requests [n] = []) : Broadcasts d (d.note n) [] :=
  .of_same rfl rfl rfl rfl hn

theorem log (d : Desk) (line : Log.Line) : Broadcasts d (d.log line) [] := note d rfl

theorem replace {o : Overseer} (ho : d.overseer = some o) (p : Overseer) :
    Broadcasts d { d with overseer := some p } [] :=
  .of_same rfl (by rw [ho]; rfl) rfl (List.append_nil _).symm rfl

theorem machines_foldl_hear (notes : List Intake.Note) (d : Desk) :
    (notes.foldl hear d).machines = d.machines :=
  List.foldlRecOn (motive := fun e : Desk => e.machines = d.machines) notes _ rfl
    fun _ h n _ => by cases n <;> exact h

theorem updateIntake (d : Desk) (i : Intake) : Broadcasts d (d.updateIntake i) [] := by
  obtain ⟨-, hoverseer, hbus, hnotes⟩ := updateIntake_eq d i
  exact .of_same hbus (by rw [hoverseer]) (machines_foldl_hear _ _) hnotes (relay_requests _)

end Broadcasts

/-! ## Stop requests -/

theorem tellOverseer_broadcasts (d : Desk) (request : StopRequest) :
    Broadcasts d (d.tellOverseer request) [] := by
  unfold tellOverseer
  split
  · exact .refl d
  · next o ho =>
    exact ((Broadcasts.replace ho _).quiet_trans (.log _ _)).quiet_trans (.updateIntake _ _)

/-- What it comes to when some of the subscribers are told of a request. -/
structure Told (request : StopRequest) (entries : List (SubscriptionId × Subscriber))
    (d e : Desk) : Prop where
  bus : e.bus = d.bus
  overseer : e.overseer.isSome = d.overseer.isSome
  running : ∀ m, (e.machines m).running = (d.machines m).running
  cancelled : ∀ m, (e.machines m).cancelled = true ↔ (d.machines m).cancelled = true ∨
    ∃ bot, Lists entries m bot ∧ request.appliesTo bot = true
  told : Desk.requests e.notes =
    Desk.requests d.notes ++ List.replicate (recorders entries) request

theorem lists_cons {entry : SubscriptionId × Subscriber} {m : Nat} {bot : BotId} :
    Lists (entry :: entries) m bot ↔ entry.2 = .run m bot ∨ Lists entries m bot := by
  obtain ⟨id, s⟩ := entry
  simp [Lists, exists_or, eq_comm]

theorem recorders_cons (entry : SubscriptionId × Subscriber)
    (entries : List (SubscriptionId × Subscriber)) :
    recorders (entry :: entries) = recorders entries + if entry.2 = .recorder then 1 else 0 := by
  simp [recorders, List.countP_cons]

theorem Told.quiet_cons {entry : SubscriptionId × Subscriber} {c : Desk}
    (hrecorder : entry.2 ≠ .recorder) (hrun : ∀ m bot, entry.2 ≠ .run m bot)
    (hc : Broadcasts d c []) (h : Told request entries c e) :
    Told request (entry :: entries) d e where
  bus := h.bus.trans hc.bus
  overseer := h.overseer.trans hc.overseer
  running m := (h.running m).trans (hc.running m)
  cancelled m := by
    rw [h.cancelled, hc.cancelled]
    simp [Cancels, lists_cons, hrun]
  told := by
    rw [h.told, hc.told, recorders_cons, if_neg hrecorder]
    simp

theorem tellRun_machines (d : Desk) (request : StopRequest) (m : Nat) (bot : BotId) (k : Nat) :
    ((d.tellRun request m bot).machines k).running = (d.machines k).running ∧
      (((d.tellRun request m bot).machines k).cancelled = true ↔
        (d.machines k).cancelled = true ∨ m = k ∧ request.appliesTo bot = true) := by
  unfold tellRun
  cases happlies : request.appliesTo bot with
  | false => simp
  | true =>
    by_cases hk : k = m
    · subst hk
      cases hcancelled : (d.machines k).cancelled with
      | true => simp [hcancelled]
      | false => simp [updateMachine, Desk.log, Desk.note]
    · cases hcancelled : (d.machines m).cancelled with
      | true => simp [Ne.symm hk]
      | false => simp [updateMachine, Desk.log, Desk.note, hk, Ne.symm hk]

theorem tellRun_eq (d : Desk) (request : StopRequest) (m : Nat) (bot : BotId) :
    (d.tellRun request m bot).bus = d.bus ∧ (d.tellRun request m bot).overseer = d.overseer ∧
      Desk.requests (d.tellRun request m bot).notes = Desk.requests d.notes := by
  unfold tellRun
  split
  · exact ⟨rfl, rfl, (requests_append _ _).trans (List.append_nil _)⟩
  · exact ⟨rfl, rfl, rfl⟩

theorem Told.cons {entry : SubscriptionId × Subscriber}
    (h : Told request entries (tellStop request d entry.2) e) :
    Told request (entry :: entries) d e := by
  obtain ⟨id, s⟩ := entry
  cases s with
  | overseer => exact .quiet_cons (by simp) (by simp) (tellOverseer_broadcasts d request) h
  | wallet => exact .quiet_cons (by simp) (by simp) (.refl d) h
  | recorder =>
    refine ⟨h.bus, h.overseer, h.running, fun m => ?_, ?_⟩
    · rw [h.cancelled]
      simp [lists_cons, tellStop, Desk.note]
    · rw [h.told, recorders_cons, tellStop, Desk.note, requests_append]
      simp [List.replicate_succ, Desk.requests]
  | run m bot =>
    obtain ⟨hbus, hoverseer, htold⟩ := tellRun_eq d request m bot
    refine ⟨h.bus.trans hbus, h.overseer.trans (congrArg _ hoverseer),
      fun k => (h.running k).trans (tellRun_machines d request m bot k).1, fun k => ?_, ?_⟩
    · rw [h.cancelled, tellStop, (tellRun_machines d request m bot k).2, or_assoc]
      simp only [lists_cons, Subscriber.run.injEq]
      refine or_congr_right ⟨?_, ?_⟩
      · rintro (⟨hk, happlies⟩ | ⟨b, hb, happlies⟩)
        · exact ⟨bot, .inl ⟨hk, rfl⟩, happlies⟩
        · exact ⟨b, .inr hb, happlies⟩
      · rintro ⟨b, ⟨hk, rfl⟩ | hb, happlies⟩
        · exact .inl ⟨hk, happlies⟩
        · exact .inr ⟨b, hb, happlies⟩
    · rw [h.told, tellStop, htold, recorders_cons]
      simp

theorem told_foldl (request : StopRequest) (entries : List (SubscriptionId × Subscriber))
    (d : Desk) :
    Told request entries d (entries.foldl (fun d e => tellStop request d e.2) d) := by
  induction entries generalizing d with
  | nil => exact ⟨rfl, rfl, fun _ => rfl, fun m => by simp [Lists], (List.append_nil _).symm⟩
  | cons entry entries ih => exact (ih (tellStop request d entry.2)).cons

theorem publishStop_broadcasts (d : Desk) (request : StopRequest) :
    Broadcasts d (d.publishStop request) [request] := by
  have htold := told_foldl request d.bus.stops (d.log (Event.stop request).logLine)
  refine (Broadcasts.log d (Event.stop request).logLine).quiet_trans ⟨htold.bus, htold.overseer,
    htold.running, fun m => ?_, ?_⟩
  · rw [publishStop, htold.cancelled]
    simp [Cancels, Desk.log, Desk.note]
  · rw [publishStop, htold.told]
    simp [Desk.log, Desk.note]

theorem stopAll_broadcasts (d : Desk) (reason : StopReason) (exclude : Option BotId) :
    Broadcasts d (d.stopAll reason exclude) [stopRequest reason exclude] :=
  (Broadcasts.log d _).quiet_trans (publishStop_broadcasts _ _)

/-! ## Trades and finished runs -/

theorem obey_broadcasts (d : Desk) (reaction : Overseer.Reaction) :
    Broadcasts d (d.obey reaction) reaction.request?.toList := by
  cases reaction with
  | log line => exact .log d line
  | request request => exact publishStop_broadcasts d request
  | startIntake =>
    simp only [obey]
    generalize d.intake.start true = p
    obtain ⟨i, _ | fault⟩ := p
    · exact .updateIntake d i
    · exact (Broadcasts.updateIntake d i).quiet_trans (.log _ _)

theorem foldl_obey_broadcasts (reactions : List Overseer.Reaction) (d : Desk) :
    Broadcasts d (reactions.foldl obey d)
      (reactions.filterMap Overseer.Reaction.request?) := by
  induction reactions generalizing d with
  | nil => exact .refl d
  | cons reaction reactions ih =>
    have hcons : (reaction :: reactions).filterMap Overseer.Reaction.request? =
        reaction.request?.toList ++ reactions.filterMap Overseer.Reaction.request? := by
      cases reaction <;> rfl
    rw [hcons]
    exact (obey_broadcasts d reaction).trans (ih _)

theorem Answers.refl (d : Desk) : Answers d d := ⟨[], .refl d, fun _ hr => nomatch hr⟩

theorem Answers.trans (h : Answers d e) (h' : Answers e f) : Answers d f := by
  obtain ⟨requests, hb, hown⟩ := h
  obtain ⟨further, hb', hown'⟩ := h'
  exact ⟨requests ++ further, hb.trans hb', List.forall_mem_append.mpr ⟨hown, hown'⟩⟩

theorem Broadcasts.answers (h : Broadcasts d e []) : Answers d e := ⟨[], h, fun _ hr => nomatch hr⟩

theorem consult_answers {o : Overseer} {next : Overseer × List Overseer.Reaction}
    (ho : d.overseer = some o)
    (hown : ∀ r ∈ next.2.filterMap Overseer.Reaction.request?, r ∈ Overseer.ownRequests) :
    Answers d (d.consult next) :=
  ⟨_, (Broadcasts.replace ho next.1).quiet_trans (foldl_obey_broadcasts next.2 _), hown⟩

theorem tellTrade_answers {bot : BotId} {fill : Fill} {s : Subscriber}
    (h : tellTrade bot fill d s = .ok e) : Answers d e := by
  cases s with
  | recorder =>
    cases h
    exact (Broadcasts.note d rfl).answers
  | wallet =>
    cases h
    exact (Broadcasts.note d rfl).answers
  | run m b =>
    cases h
    exact .refl d
  | overseer =>
    simp only [tellTrade] at h
    split at h
    · cases h
      exact .refl d
    · next o ho =>
      cases hnext : o.onTrade bot fill with
      | error fault =>
        rw [hnext] at h
        cases h
      | ok next =>
        rw [hnext] at h
        cases h
        exact consult_answers ho (Overseer.requests_onTrade hnext)

theorem tellTrades_answers (bot : BotId) (fill : Fill)
    (entries : List (SubscriptionId × Subscriber)) (d : Desk) :
    Answers d (tellTrades bot fill d entries).1 := by
  induction entries generalizing d with
  | nil => exact .refl d
  | cons entry entries ih =>
    unfold tellTrades
    split
    · next e htold => exact (tellTrade_answers htold).trans (ih e)
    · exact .refl d

theorem tellCycle_answers (bot : BotId) (outcome : Outcome) (d : Desk) (s : Subscriber) :
    Answers d (tellCycle bot outcome d s) := by
  cases s with
  | recorder => exact (Broadcasts.note d rfl).answers
  | wallet => exact .refl d
  | run m b => exact .refl d
  | overseer =>
    simp only [tellCycle]
    split
    · exact .refl d
    · next o ho => exact consult_answers ho (Overseer.requests_onCycle o bot outcome)

theorem publishCycle_answers (d : Desk) (bot : BotId) (outcome : Outcome) :
    Answers d (d.publishCycle bot outcome) :=
  List.foldlRecOn (motive := fun e : Desk => Answers d e) d.bus.cycles _
    (Broadcasts.log d (Event.cycle bot outcome).logLine).answers
    fun e he entry _ => he.trans (tellCycle_answers bot outcome e entry.2)

/-- An event that is no request makes the overseer ask for something, and nobody else. -/
theorem publish_answers (d : Desk) (event : Event) (hevent : event.kind ≠ .stop) :
    Answers d (d.publish event).1 := by
  cases event with
  | trade bot fill =>
    exact (Broadcasts.log d (Event.trade bot fill).logLine).answers.trans
      (tellTrades_answers bot fill _ _)
  | cycle bot outcome => exact publishCycle_answers d bot outcome
  | stop request => exact absurd rfl hevent

/-! ## Runs -/

theorem carryOut_answers {notices : List Run.Notice}
    (h : ∀ event ∈ Run.announced notices, event.kind ≠ .stop) :
    Answers d (d.carryOut notices).1 := by
  induction notices generalizing d with
  | nil => exact .refl d
  | cons notice notices ih =>
    cases notice with
    | log line => exact (Broadcasts.log d line).answers.trans (ih h)
    | publish event =>
      obtain ⟨hevent, hrest⟩ := List.forall_mem_cons.mp h
      have hfirst := publish_answers d event hevent
      simp only [carryOut]
      split
      · next e heq =>
        rw [heq] at hfirst
        exact hfirst.trans (ih hrest)
      · next e fault heq =>
        rw [heq] at hfirst
        exact hfirst

theorem carryOut_quiet_broadcasts {notices : List Run.Notice} (h : Run.announced notices = []) :
    Broadcasts d (d.carryOut notices).1 [] := by
  induction notices generalizing d with
  | nil => exact .refl d
  | cons notice notices ih =>
    cases notice with
    | log line => exact (Broadcasts.log d line).quiet_trans (ih h)
    | publish event => cases h

theorem resume_answers (d : Desk) (plan : Plan) (cancelled : Bool) (now : Moment) (r : Run)
    (reply : Reply) : Answers d (d.carryOut (r.resume plan cancelled now reply).2).1 := by
  refine carryOut_answers fun event hevent => ?_
  rcases Run.terse_resume plan cancelled now r reply with h | ⟨fill, h | ⟨outcome, h⟩⟩
  · rw [h] at hevent
    cases hevent
  · rw [h] at hevent
    obtain rfl := List.mem_singleton.mp hevent
    nofun
  · rw [h] at hevent
    rcases List.mem_pair.mp hevent with rfl | rfl
    · nofun
    · nofun

end Desk

end LaunchDesk
