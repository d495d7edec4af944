import LaunchDesk.Proofs.Run.Salvage
import LaunchDesk.Proofs.Session.Places
import LaunchDesk.Proofs.Session.Roll

/-!
# Runs without funds

When a run of a session fails for lack of funds, everybody but the run is asked to stop. Every stop
request that is published in a session has one of four sources, and no other one gives that reason.
-/

namespace LaunchDesk

open Run (lastResort)

namespace Desk

variable {d e f : Desk} {requests further : List StopRequest}

/-- What leads from `d` to `e` when `requests` are published: those who listen are told of each of
them and go on listening, and the runs that they are about are cancelled. -/
structure Conveys (d e : Desk) (requests : List StopRequest) : Prop where
  overseer : e.overseer.isSome = d.overseer.isSome
  listeners : e.bus.stops.filter (·.2 = .recorder) = d.bus.stops.filter (·.2 = .recorder)
  told : Desk.requests e.notes =
    Desk.requests d.notes ++ requests.flatMap (List.replicate (recorders d.bus.stops))
  cancelled : ∀ m, (e.machines m).cancelled = true ↔ d.Cancels requests m

theorem Broadcasts.conveys (h : Broadcasts d e requests) : Conveys d e requests :=
  ⟨h.overseer, by rw [h.bus], h.told, h.cancelled⟩

/-- In between only runs may come or go that the later requests are not about. -/
theorem Conveys.trans (h : Conveys d e requests) (h' : Conveys e f further)
    (hsame : ∀ request ∈ further, ∀ m bot, request.appliesTo bot = true →
      (Lists e.bus.stops m bot ↔ Lists d.bus.stops m bot)) :
    Conveys d f (requests ++ further) where
  overseer := h'.overseer.trans h.overseer
  listeners := h'.listeners.trans h.listeners
  told := by
    have hsame : Desk.recorders e.bus.stops = Desk.recorders d.bus.stops := by
      simp only [Desk.recorders, List.countP_eq_length_filter, h.listeners]
    rw [h'.told, h.told, hsame, List.flatMap_append, List.append_assoc]
  cancelled m := by
    -- A later request finds the runs on the list of `d` that it is about; who else came or went
    -- in between makes no difference.
    have hlater : (∃ request ∈ further, ∃ bot, Lists e.bus.stops m bot ∧
        request.appliesTo bot = true) ↔ ∃ request ∈ further, ∃ bot, Lists d.bus.stops m bot ∧
        request.appliesTo bot = true :=
      exists_congr fun request => and_congr_right fun hmem => exists_congr fun bot =>
        and_congr_left fun happlies => hsame request hmem m bot happlies
    rw [h'.cancelled, Cancels, h.cancelled, hlater, Cancels, Cancels, or_assoc]
    simp [or_and_right, exists_or]

theorem Conveys.refl (d : Desk) : Conveys d d [] := (Broadcasts.refl d).conveys

theorem Conveys.trans_quiet (h : Conveys d e requests) (h' : Conveys e f []) :
    Conveys d f requests := List.append_nil requests ▸ h.trans h' (by simp)

theorem conveys_note {n : Note} (d : Desk) (hn : Desk.requests [n] = []) :
    Conveys d (d.note n) [] := (Broadcasts.note d hn).conveys

theorem conveys_updateIntake (d : Desk) (i : Intake) : Conveys d (d.updateIntake i) [] :=
  (Broadcasts.updateIntake d i).conveys

theorem conveys_manned (d : Desk) (m : Nat) (bot : BotId) : Conveys d (d.manned m bot) [] where
  overseer := rfl
  listeners := by
    change (d.bus.stops ++ [_]).filter _ = _
    simp
  told := (List.append_nil _).symm
  cancelled k := by simp [cancelled_manned, Cancels]

theorem conveys_leave {t : Trader}
    (hown : ∀ e ∈ d.bus.stops, e.2 = .recorder → e.1 ≠ t.subscription) :
    Conveys d (d.leave t) [] where
  overseer := rfl
  listeners := by
    change (d.bus.unsubscribe t.subscription).2.stops.filter _ = _
    rcases Bus.subscribed_unsubscribe_cases d.bus t.subscription .stop with hsame | hwithout
    · exact congrArg _ hsame
    · exact (congrArg _ hwithout).trans (listeners_without hown)
  told := (List.append_nil _).symm
  cancelled k := by simp [cancelled_leave, Cancels]

end Desk

namespace Session

variable {s v : Session} {d e : Desk} {k : Nat} {t : Trader} {turn : Turn} {p : Run.Progress}
variable {requests : List StopRequest} {request : StopRequest}

/-! ## Where requests come from -/

/-- The request that is published when the run of a bot has no funds. -/
def noFunds (bot : BotId) : StopRequest := (StopRequest.all .insufficientFunds).excluding bot

/-- Where a request that is published in a turn comes from. -/
inductive Source (s : Session) (turn : Turn) (request : StopRequest) : Prop
  /-- The overseer asks for it at one of its limits. -/
  | limit (hown : request ∈ Overseer.ownRequests)
  | shutdown (hturn : turn = .move .beginShutdown) (hrequest : request = .all .shutdown)
  | outside (hturn : turn = .publish (.stop request))
  /-- A run has failed for lack of funds. -/
  | failure {now : Moment} {k : Nat} {reply : Reply} {t : Trader} {cause : ExecutionFault}
      (hturn : turn = .move (.reply now k reply)) (hk : s.seats[k]? = some (.working t))
      (hphase : t.run.phase = .salvaging .insufficientFunds cause)
      (hreply : (lastResort t.plan).awaits reply = true)
      (hrequest : request = noFunds t.plan.botId)

/-! ## Leaving -/

/-- Only a run that has failed for lack of funds has others asked to stop when it is over. -/
theorem conclude_broadcasts {ending : Intake.Ending} (h : conclude d t = some (e, ending)) :
    ∃ requests, Desk.Broadcasts d e requests ∧ ∀ request ∈ requests,
      request = noFunds t.plan.botId ∧
        ∃ cause, t.run.phase = .ended (.error (.buyFatal .insufficientFunds cause)) := by
  have hnothing : ∃ requests, Desk.Broadcasts d d requests ∧ ∀ request ∈ requests,
      request = noFunds t.plan.botId ∧
        ∃ cause, t.run.phase = .ended (.error (.buyFatal .insufficientFunds cause)) :=
    ⟨[], .refl d, List.forall_mem_nil _⟩
  unfold conclude at h
  split at h
  · cases h
    exact ⟨[], .log d _, List.forall_mem_nil _⟩
  · next fault hphase =>
    cases h
    split
    · next hkind =>
      have hfault : ∃ cause, fault = .buyFatal .insufficientFunds cause := by
        cases fault with
        | buyFatal kind cause =>
          obtain rfl := Option.some.inj hkind
          exact ⟨cause, rfl⟩
        | _ => cases hkind
      obtain ⟨cause, rfl⟩ := hfault
      unfold stopOthers
      split
      · exact ⟨_, Desk.stopAll_broadcasts d _ _,
          List.forall_mem_singleton.mpr ⟨rfl, cause, hphase⟩⟩
      · exact ⟨[], .log d _, List.forall_mem_nil _⟩
    · exact hnothing
  · cases h
    exact hnothing
  · cases h

theorem conveys_leave_seat (henrolled : Enrolled s.desk.bus s.seats)
    (hk : s.seats[k]? = some (.working t)) (hbus : d.bus = s.desk.bus) :
    Desk.Conveys d (d.leave t) [] := by
  refine Desk.conveys_leave fun e he hrecorder hid => ?_
  rw [hbus] at he
  -- Of those with the number of the run only the run itself is on the roll, and it records nothing.
  rw [henrolled.enrols.entry_eq ⟨t, hk, rfl, rfl⟩ he hid] at hrecorder
  cases hrecorder

theorem lists_leave (henrolled : Enrolled s.desk.bus s.seats)
    (hk : s.seats[k]? = some (.working t)) (hbus : d.bus = s.desk.bus) {m : Nat} {bot : BotId}
    (happlies : (noFunds t.plan.botId).appliesTo bot = true) :
    Desk.Lists (d.leave t).bus.stops m bot ↔ Desk.Lists s.desk.bus.stops m bot := by
  have hroll : roll s.seats t.subscription k t.plan.botId := ⟨t, hk, rfl, rfl⟩
  have hleft : (d.leave t).bus = (s.desk.bus.unsubscribe t.subscription).2 := by rw [← hbus]; rfl
  refine exists_congr fun id => ?_
  rw [hleft, (henrolled.enrols.strike hroll).listed, ← henrolled.enrols.listed]
  refine and_iff_left_of_imp fun hmem hid => ?_
  have hentry := henrolled.enrols.entry_eq hroll hmem hid
  obtain rfl : bot = t.plan.botId := (Subscriber.run.inj (Prod.ext_iff.mp hentry).2).2
  simp [noFunds, StopRequest.appliesTo, StopRequest.excluding, StopRequest.all] at happlies

theorem conveys_proceed (henrolled : Enrolled s.desk.bus s.seats)
    (hk : s.seats[k]? = some (.working t)) (hanswers : Desk.Answers s.desk (s.desk.carryOut p.2).1)
    (hfailure : ∀ cause, p.1.phase = .ended (.error (.buyFatal .insufficientFunds cause)) →
      Source s turn (noFunds t.plan.botId)) :
    ∃ requests, Desk.Conveys s.desk
        (s.proceed k (s.desk.proceed k t p).1 (s.desk.proceed k t p).2).desk requests ∧
      ∀ request ∈ requests, Source s turn request := by
  obtain ⟨requests, hb, hown⟩ := hanswers
  have hsources : ∀ request ∈ requests, Source s turn request := fun r hr => .limit (hown r hr)
  have htrader := Desk.proceed_trader s.desk k t p
  rcases proceed_cases s k htrader with ⟨request, -, hasks⟩ | ⟨e, ending, hconclude, hleaves⟩
  · rw [htrader, hasks]
    refine ⟨requests, ?_, hsources⟩
    change Desk.Conveys s.desk (s.settle _).desk requests
    rw [desk_settle]
    exact hb.conveys.trans_quiet (Desk.conveys_note _ rfl)
  -- The requests of the overseer come first, while the run is still there to be cancelled; those
  -- for lack of funds come when it has left.
  · obtain ⟨more, hb', hmore⟩ := conclude_broadcasts hconclude
    have hleft := hb.conveys.trans_quiet (conveys_leave_seat henrolled hk hb.bus)
    rw [htrader, hleaves]
    refine ⟨requests ++ more, ?_, List.forall_mem_append.mpr ⟨hsources, fun r hr => ?_⟩⟩
    · change Desk.Conveys s.desk (s.settle _).desk (requests ++ more)
      rw [desk_settle]
      refine (hleft.trans hb'.conveys fun r hr m bot happlies => ?_).trans_quiet
        (Desk.conveys_note _ rfl)
      rw [(hmore r hr).1] at happlies
      exact lists_leave henrolled hk hb.bus happlies
    · obtain ⟨rfl, cause, hphase⟩ := hmore r hr
      refine hfailure cause ?_
      -- A run that crashed has not failed.
      cases hfault : (s.desk.carryOut p.2).2 with
      | none =>
        rw [hfault] at hphase
        exact hphase
      | some fault =>
        rw [hfault] at hphase
        cases hphase

theorem conveys_reply (hhoused : s.Housed) (henrolled : Enrolled s.desk.bus s.seats)
    (hk : s.seats[k]? = some (.working t)) (now : Moment) (reply : Reply) :
    ∃ requests, Desk.Conveys s.desk (s.proceed k (s.desk.resume k t now reply).1
        (s.desk.resume k t now reply).2).desk requests ∧
      ∀ request ∈ requests, Source s (.move (.reply now k reply)) request := by
  refine conveys_proceed henrolled hk (Desk.resume_answers ..) fun cause hphase => ?_
  have hover : t.run.isOver = false := by
    simpa [Seat.isBusy] using hhoused.busy _ (List.mem_of_getElem? hk)
  obtain ⟨kind, cause', hphase', hfault, hreply⟩ := Run.salvaging_of_failed hover hphase
  obtain ⟨rfl, rfl⟩ := Fault.buyFatal.inj hfault
  exact .failure rfl hk hphase' hreply rfl

theorem conveys_start {opportunity : Opportunity} {now : Moment} {p : Desk × Trader}
    (hstart : (s.heralded k opportunity).start? k k (s.plan k opportunity) now = some p) :
    Desk.Conveys s.desk (s.proceed k p.1 p.2).desk [] := by
  obtain ⟨e, trader⟩ := p
  obtain ⟨htrader, hover, request, hdesk⟩ := Desk.start?_spec hstart
  let heralded := s.heralded k opportunity
  let d := heralded.manned k (s.plan k opportunity).botId
  let begun := Run.start (s.plan k opportunity) (heralded.machines k).cancelled now
  have hlogged : Desk.Conveys s.desk heralded [] := Desk.conveys_note _ rfl
  have hcarried : Desk.Broadcasts d (d.carryOut begun.2).1 [] :=
    Desk.carryOut_quiet_broadcasts (Run.start_spec _ _ _ (s.plan k opportunity).botId).1
  have hbegun : Desk.Conveys s.desk (d.carryOut begun.2).1 [] :=
    (hlogged.trans_quiet (Desk.conveys_manned _ _ _)).trans_quiet hcarried.conveys
  have hnone : conclude e trader = none := by
    obtain ⟨next, hnext⟩ : ∃ next, trader.run.request? trader.plan = some next := by
      refine Option.ne_none_iff_exists'.mp fun hnone => ?_
      rw [htrader] at hnone
      exact absurd ((Run.isOver_iff _ _).mpr hnone) (Bool.eq_false_iff.mp hover)
    exact conclude_of_request e hnext
  rw [Session.proceed, hnone]
  change Desk.Conveys s.desk (s.settle e).desk []
  rw [desk_settle, hdesk]
  exact hbegun.trans_quiet (Desk.conveys_note _ rfl)

/-- Every stop request that is published in a turn has one of the four sources. -/
theorem conveys_take (hhoused : s.Housed) (henrolled : Enrolled s.desk.bus s.seats)
    (hlisten : ∀ kind, turn ≠ .enlist kind)
    (hturn : turn ≠ .letGo) :
    ∃ requests, Desk.Conveys s.desk (s.take turn).desk requests ∧
      ∀ request ∈ requests, Source s turn request := by
  have hquiet : ∀ {e : Desk}, Desk.Conveys s.desk e [] →
      ∃ requests, Desk.Conveys s.desk e requests ∧ ∀ request ∈ requests, Source s turn request :=
    fun h => ⟨[], h, List.forall_mem_nil _⟩
  have hsame : ∀ {e : Desk}, e.overseer = s.desk.overseer → e.bus = s.desk.bus →
      e.notes = s.desk.notes → e.machines = s.desk.machines → Desk.Conveys s.desk e [] := by
    intro e hoverseer hbus hnotes hmachines
    exact (Desk.Broadcasts.of_same hbus (congrArg _ hoverseer) hmachines
      (hnotes.trans (List.append_nil _).symm) rfl).conveys
  have hsettled : ∀ {e : Desk} {requests}, Desk.Conveys s.desk e requests →
      Desk.Conveys s.desk (s.settle e).desk requests := fun h => by rwa [desk_settle]
  have hbecomes := becomes_take s turn
  generalize s.take turn = v at hbecomes ⊢
  cases hbecomes with
  | idle => exact hquiet (.refl _)
  | operates hop => exact hquiet (hsettled (Desk.conveys_updateIntake ..))
  | prepares change hchange => exact hquiet (hsame rfl rfl rfl rfl)
  | begins hk hstart => exact hquiet (conveys_start hstart)
  | refuses hk =>
    exact hquiet (hsettled ((Desk.conveys_note _ rfl).trans_quiet (Desk.conveys_note _ rfl)))
  | replies hk => exact conveys_reply hhoused henrolled hk _ _
  | vacates hk => exact hquiet (hsettled (Desk.conveys_updateIntake ..))
  | pays hdesk =>
    obtain rfl | ⟨line, rfl⟩ := hdesk
    · exact hquiet (.refl _)
    · exact hquiet (Desk.conveys_note _ rfl)
  | waits goal => exact hquiet (hsame rfl rfl rfl rfl)
  | shutsDown =>
    have hstopped := hsettled (Desk.stopAll_broadcasts s.desk .shutdown none).conveys
    exact ⟨[.all .shutdown],
      ⟨hstopped.overseer, hstopped.listeners, hstopped.told, hstopped.cancelled⟩,
      List.forall_mem_singleton.mpr (.shutdown rfl rfl)⟩
  | hasShutDown line => exact hquiet (Desk.conveys_note _ rfl)
  | publishes event =>
    by_cases hevent : event.kind = .stop
    · cases event with
      | stop request =>
        exact ⟨[request], hsettled (Desk.publishStop_broadcasts s.desk request).conveys,
          List.forall_mem_singleton.mpr (.outside rfl)⟩
      | trade bot fill => cases hevent
      | cycle bot outcome => cases hevent
    · obtain ⟨requests, hb, hown⟩ := Desk.publish_answers s.desk event hevent
      exact ⟨requests, hsettled hb.conveys, fun request hr => .limit (hown request hr)⟩
  | enlists kind => exact absurd rfl (hlisten kind)
  | looks waiter => exact hquiet (hsame rfl rfl rfl rfl)
  | letsGo => exact absurd rfl hturn

/-! ## Live sessions -/

/-- What holds at any time of a session that has not been let go. -/
structure Live (s : Session) : Prop where
  housed : s.Housed
  enrolled : Enrolled s.desk.bus s.seats
  overseer : s.desk.overseer.isSome = true

theorem Live.take (h : s.Live) (hturn : turn ≠ .letGo) : (s.take turn).Live := by
  refine ⟨h.housed.take turn, keeps_enrolled.take h.enrolled hturn, ?_⟩
  by_cases hlisten : ∃ kind, turn = .enlist kind
  · obtain ⟨kind, rfl⟩ := hlisten
    exact h.overseer
  · obtain ⟨requests, hconveys, -⟩ := conveys_take h.housed h.enrolled
      (fun kind heq => hlisten ⟨kind, heq⟩) hturn
    exact hconveys.overseer.trans h.overseer

theorem live_played (setup : Setup) (wallet : SimulatedWallet) {turns : List Turn}
    (h : Turn.letGo ∉ turns) : (played setup wallet turns).Live := by
  -- The invariant is `Live`, and every turn but the one that lets go keeps it.
  induction turns using List.reverseRecOn with
  | nil =>
    refine ⟨housed_played setup wallet [], enrolled_create setup wallet, ?_⟩
    change (create setup wallet).desk.overseer.isSome = true
    rw [create_eq]
    rfl
  | append_singleton turns turn ih =>
    rw [List.mem_append, not_or] at h
    rw [played_snoc]
    exact (ih h.1).take fun heq => h.2 (List.mem_singleton.mpr heq.symm)

/-! ## Runs that fail -/

/-- The desk when a run has failed for this reason. -/
def afterFailure (d : Desk) (t : Trader) (kind : FatalKind) : Desk :=
  if kind = .insufficientFunds then stopOthers (d.leave t) t.plan.botId else d.leave t

theorem reply_salvaging {kind : FatalKind} {cause : ExecutionFault} {reply : Reply}
    (hk : s.seats[k]? = some (.working t)) (hphase : t.run.phase = .salvaging kind cause)
    (hreply : (lastResort t.plan).awaits reply = true) (now : Moment) : ∃ line,
    s.reply now k reply =
      (s.settle ((afterFailure (s.desk.log line) t kind).note (.ended k))).setSeat k
        (.leaving (.failed (Fault.buyFatal kind cause).message)) := by
  let cancelled := (s.desk.machines t.machine).cancelled
  let failed := t.run.enter (.ended (.error (.buyFatal kind cause)))
  obtain ⟨line, hresume⟩ := Run.resume_salvaging cancelled now hphase hreply
  have hdesk : s.desk.resume k t now reply =
      ((s.desk.log line).leave t, { t with run := failed }) := by
    rw [Desk.resume, hresume]
    rfl
  have hconclude : conclude ((s.desk.log line).leave t) { t with run := failed } =
      some (afterFailure (s.desk.log line) t kind,
        .failed (Fault.buyFatal kind cause).message) := by
    simp only [conclude, failed, Run.enter, Fault.fatalKind?, Option.some.injEq]
    rfl
  refine ⟨line, ?_⟩
  simp only [Session.reply, hk, hdesk, Session.proceed, hconclude]

theorem reply_fatal {kind : FatalKind} {cause : ExecutionFault} {seen : Snapshot}
    (hk : s.seats[k]? = some (.working t)) (hphase : t.run.phase = .buying seen)
    (hfatal : t.plan.classify cause = .fatal kind) (now : Moment) :
    ∃ u line, u.plan = t.plan ∧ u.machine = t.machine ∧ u.run.phase = .salvaging kind cause ∧
      s.reply now k (.order (.error cause)) =
        (s.settle ((s.desk.log line).note (.asked k (lastResort t.plan)))).setSeat k
          (.working u) := by
  let cancelled := (s.desk.machines t.machine).cancelled
  obtain ⟨r, line, hresume, hnext⟩ := Run.resume_fatal cancelled now hphase hfatal
  have hrequest : r.request? t.plan = some (lastResort t.plan) := Run.request_salvaging hnext
  have hdesk : s.desk.resume k t now (.order (.error cause)) =
      ((s.desk.log line).note (.asked k (lastResort t.plan)), { t with run := r }) := by
    rw [Desk.resume, hresume]
    simp only [Desk.proceed, Desk.goOn, Desk.carryOut, Option.elim_none, hrequest]
  have hconclude : conclude ((s.desk.log line).note (.asked k (lastResort t.plan)))
      { t with run := r } = none := conclude_of_request _ hrequest
  refine ⟨{ t with run := r }, line, rfl, rfl, hnext, ?_⟩
  simp only [Session.reply, hk, hdesk, Session.proceed, hconclude]

/-- What comes of a run in seat `k` that fails in a turn. -/
structure Fails (s : Session) (turn : Turn) (k : Nat) (t : Trader) (kind : FatalKind)
    (cause : ExecutionFault) : Prop where
  seat : (s.take turn).seats[k]? = some (.leaving (.failed (Fault.buyFatal kind cause).message))
  /-- Everybody who listens is told of one request just if there were no funds. -/
  told : Desk.requests (s.take turn).desk.notes = Desk.requests s.desk.notes ++
    if kind = .insufficientFunds then
      List.replicate (Desk.recorders s.desk.bus.stops) ⟨.insufficientFunds, .all [t.plan.botId]⟩
    else []
  quiet : s.events turn = []
  counters : (s.take turn).desk.ledger? = s.desk.ledger?
  machine : ((s.take turn).desk.machines t.machine).running = false
  /-- Its place is given back by the next move that frees the seat. -/
  place : ∀ v, v = s.take turn ∨ v = (s.take turn).take (.move (.vacate k)) →
    v.desk.intake.inProgress = v.seats.countP Seat.hasPlace
  gone : ((s.take turn).take (.move (.vacate k))).seats[k]? = some .gone

theorem ledger_stopOthers (bot : BotId) (hd : d.intake.notes = [])
    (ho : d.overseer.isSome = true) : (stopOthers d bot).ledger? = d.ledger? := by
  obtain ⟨l, hl⟩ : ∃ l, d.ledger? = some l := by
    obtain ⟨o, ho⟩ := Option.isSome_iff_exists.mp ho
    exact ⟨o.ledger, by rw [Desk.ledger?, ho]; rfl⟩
  -- The request is no trade and no finished run, so the overseer counts nothing.
  obtain ⟨m, hm, hafter⟩ := (follows_stopOthers bot hd).ledger l hl
  rw [Ledger.afterAll_nil] at hafter
  obtain rfl := Except.ok.inj hafter
  rw [hm, hl]

theorem afterFailure_spec (kind : FatalKind) (line : Log.Line) (hlive : s.Live)
    (hk : s.seats[k]? = some (.working t)) :
    let e := afterFailure (s.desk.log line) t kind
    Desk.Conveys s.desk e (if kind = .insufficientFunds then [noFunds t.plan.botId] else []) ∧
      e.ledger? = s.desk.ledger? ∧ (e.machines t.machine).running = false := by
  let left := (s.desk.log line).leave t
  have hquiet : Desk.Conveys s.desk left [] :=
    (Desk.conveys_note s.desk (show Desk.requests [.log line] = [] from rfl)).trans_quiet
      (conveys_leave_seat hlive.enrolled hk rfl)
  have hrunning : (left.machines t.machine).running = false := by
    simp [left, Desk.leave, Desk.updateMachine]
  unfold afterFailure
  split
  · have hstop : stopOthers left t.plan.botId =
        left.stopAll .insufficientFunds (some t.plan.botId) := if_pos hlive.overseer
    have hasked := Desk.stopAll_broadcasts left .insufficientFunds (some t.plan.botId)
    refine ⟨?_, ?_, ?_⟩
    · rw [hstop]
      -- The run has left when the others are asked, and the request is not about it anyway.
      refine hquiet.trans hasked.conveys fun request hmem m bot happlies => ?_
      obtain rfl := List.mem_singleton.mp hmem
      exact lists_leave hlive.enrolled hk rfl happlies
    · exact ledger_stopOthers (d := left) t.plan.botId hlive.housed.heard hlive.overseer
    · rw [hstop, hasked.running]
      exact hrunning
  · exact ⟨hquiet, rfl, hrunning⟩

theorem fails_of_salvaging {kind : FatalKind} {cause : ExecutionFault} {reply : Reply}
    (hlive : s.Live) (hk : s.seats[k]? = some (.working t))
    (hphase : t.run.phase = .salvaging kind cause)
    (hreply : (lastResort t.plan).awaits reply = true) (now : Moment) :
    s.Fails (.move (.reply now k reply)) k t kind cause := by
  obtain ⟨line, hfailed⟩ := reply_salvaging hk hphase hreply now
  obtain ⟨hconveys, hledger, hrunning⟩ := afterFailure_spec kind line hlive hk
  have htake : s.take (.move (.reply now k reply)) = s.reply now k reply := rfl
  have hdesk : (s.reply now k reply).desk =
      (afterFailure (s.desk.log line) t kind).note (.ended k) := by
    rw [hfailed]
    exact desk_settle s _
  have hseat : (s.reply now k reply).seats[k]? =
      some (.leaving (.failed (Fault.buyFatal kind cause).message)) := by
    rw [hfailed]
    exact seat_set hk _
  have hhoused := hlive.housed.take (.move (.reply now k reply))
  refine ⟨hseat, ?_, ?_, ?_, ?_, ?_, ?_⟩
  · rw [htake, hdesk, (hconveys.trans_quiet (Desk.conveys_note _ rfl)).told]
    split
    · exact congrArg _ (List.flatMap_singleton _ _)
    · rfl
  · obtain ⟨line, hresume⟩ :=
      Run.resume_salvaging (s.desk.machines t.machine).cancelled now hphase hreply
    simp only [events, published, hk, hresume]
    rfl
  · rw [htake, hdesk]
    exact hledger
  · rw [htake, hdesk]
    exact hrunning
  · rintro v (rfl | rfl)
    · exact hhoused.places
    · exact (hhoused.take _).places
  · change ((s.reply now k reply).vacate k).seats[k]? = some .gone
    rw [vacate, hseat]
    exact seat_set hseat _

/-! ## The source of a stop for lack of funds -/

/-- The requests that those who listen are told of in a turn. -/
def news (s : Session) (turn : Turn) : List StopRequest :=
  (Desk.requests (s.take turn).desk.notes).drop (Desk.requests s.desk.notes).length

theorem source_of_news (hlive : s.Live) (h : request ∈ s.news turn) : Source s turn request := by
  have hnothing : (Desk.requests (s.take turn).desk.notes) = Desk.requests s.desk.notes →
      Source s turn request := by
    intro hsame
    rw [news, hsame, List.drop_length] at h
    cases h
  by_cases hturn : turn = .letGo
  · subst hturn
    obtain ⟨b, hdesk⟩ := letGo_desk s
    refine hnothing ?_
    change Desk.requests s.letGo.desk.notes = _
    rw [hdesk]
  by_cases hlisten : ∃ kind, turn = .enlist kind
  · obtain ⟨kind, rfl⟩ := hlisten
    exact hnothing rfl
  · obtain ⟨requests, hconveys, hsources⟩ := conveys_take hlive.housed hlive.enrolled
      (fun kind heq => hlisten ⟨kind, heq⟩) hturn
    rw [news, hconveys.told, List.drop_left] at h
    obtain ⟨source, hmem, htold⟩ := List.mem_flatMap.mp h
    rw [(List.mem_replicate.mp htold).2]
    exact hsources source hmem

/-- A buy that fails for good, whatever the classifier takes for that, is followed by one sell of
everything, and the run fails with the fault of the buy when that is answered or its time is up;
whatever came before, nothing was published or stored. In a live session everybody but the bot is
then asked to stop just if there were no funds, the counters stay as they are, and the place is
given back. No other turn of a session publishes a request for that reason, unless it comes from
outside. -/
theorem fatal_buys_fail_alone :
    (∀ (plan : Plan) (cancelled : Bool) (now : Moment) (turns : List Run.Turn) (t : Run.Turn)
        (seen : Snapshot) (kind : FatalKind) (cause : ExecutionFault),
      (Run.play plan cancelled now turns).1.phase = .buying seen →
      t.reply = .order (.error cause) → plan.classify cause = .fatal kind →
      (Run.makeSalvageOrder plan).tokenAmount = none ∧
        (Run.makeSalvageOrder plan).reason = "salvage" ∧
        Run.Salvages plan kind cause (Run.play plan cancelled now turns) t) ∧
    ∀ (setup : Setup) (wallet : SimulatedWallet) (turns : List Turn), Turn.letGo ∉ turns →
      let s := played setup wallet turns
      (∀ k t now seen kind cause, s.seats[k]? = some (.working t) →
        t.run.phase = .buying seen → t.plan.classify cause = .fatal kind →
        ∃ u, (s.take (.move (.reply now k (.order (.error cause))))).seats[k]? =
            some (.working u) ∧ u.plan = t.plan ∧ u.run.phase = .salvaging kind cause) ∧
      (∀ k t now kind cause reply, s.seats[k]? = some (.working t) →
        t.run.phase = .salvaging kind cause → (lastResort t.plan).awaits reply = true →
        s.Fails (.move (.reply now k reply)) k t kind cause) ∧
      ∀ turn, ∀ request ∈ s.news turn, request.reason = .insufficientFunds →
        turn = .publish (.stop request) ∨
        ∃ now k reply t cause, turn = .move (.reply now k reply) ∧
          s.seats[k]? = some (.working t) ∧
          t.run.phase = .salvaging .insufficientFunds cause ∧
          (lastResort t.plan).awaits reply = true ∧ request = noFunds t.plan.botId := by
  refine ⟨?_, ?_⟩
  · intro plan cancelled now turns t seen kind cause hphase hreply hfatal
    have hshows := Run.shows_play plan cancelled now turns
    exact ⟨rfl, rfl, Run.salvages_of_fatal hshows hphase hreply hfatal⟩
  · intro setup wallet turns hturns s
    have hlive : s.Live := live_played setup wallet hturns
    refine ⟨?_, ?_, ?_⟩
    · intro k t now seen kind cause hk hphase hfatal
      obtain ⟨u, line, hplan, -, hnext, hasks⟩ := reply_fatal hk hphase hfatal now
      refine ⟨u, ?_, hplan, hnext⟩
      change (s.reply now k _).seats[k]? = _
      rw [hasks]
      exact seat_set hk _
    · intro k t now kind cause reply hk hphase hreply
      exact fails_of_salvaging hlive hk hphase hreply now
    · intro turn request hr hreason
      -- None of the limits of the overseer gives this reason, and neither does a shutdown.
      have hown : ∀ r ∈ Overseer.ownRequests, r.reason ≠ .insufficientFunds := by decide
      cases source_of_news hlive hr with
      | limit hmem => exact absurd hreason (hown request hmem)
      | shutdown hturn hrequest =>
        rw [hrequest] at hreason
        cases hreason
      | outside hturn => exact .inl hturn
      | failure hturn hk hphase hreply hrequest =>
        exact .inr ⟨_, _, _, _, _, hturn, hk, hphase, hreply, hrequest⟩

/-- Two runs look at the market, and the first one tries to buy without funds. -/
def withoutFunds : List Turn :=
  [.enlist .stop, .move (.start false), .move (.deliver false default),
    .move (.deliver false default), .move (.begin ⟨0, default⟩ 0), .move (.begin ⟨0, default⟩ 1),
    .move (.reply ⟨0, default⟩ 0 (.snapshot (.ok default))),
    .move (.reply ⟨7, default⟩ 0 (.order (.error .insufficientFunds)))]

/-- The salvage is never answered; the other run is stopped. -/
theorem run_without_funds_stops_the_other :
    (∃ t, (played sampleSetup ⟨.one⟩ withoutFunds).seats[0]? = some (.working t) ∧
      (played sampleSetup ⟨.one⟩ withoutFunds).Fails (.move (.reply ⟨5007, default⟩ 0 .expired)) 0
        t .insufficientFunds .insufficientFunds) ∧
    ((played sampleSetup ⟨.one⟩ (withoutFunds ++
      [.move (.reply ⟨5007, default⟩ 0 .expired)])).desk.machines 1).cancelled = true ∧
    Run.Salvages Run.eagerPlan .insufficientFunds .insufficientFunds
      (Run.play Run.eagerPlan false ⟨0, default⟩ [⟨false, ⟨0, default⟩, .snapshot (.ok default)⟩])
      ⟨false, ⟨7, default⟩, .order (.error .insufficientFunds)⟩ := by
  obtain ⟨hruns, hsessions⟩ := fatal_buys_fail_alone
  obtain ⟨-, hfails, -⟩ := hsessions sampleSetup ⟨.one⟩ withoutFunds
    (by simp [withoutFunds])
  have hsalvaging : ∃ t, (played sampleSetup ⟨.one⟩ withoutFunds).seats[0]? =
      some (.working t) ∧ t.run.phase = .salvaging .insufficientFunds .insufficientFunds :=
    ⟨_, rfl, rfl⟩
  obtain ⟨t, hk, hphase⟩ := hsalvaging
  obtain ⟨-, -, hsalvages⟩ := hruns Run.eagerPlan false ⟨0, default⟩
    [⟨false, ⟨0, default⟩, .snapshot (.ok default)⟩]
    ⟨false, ⟨7, default⟩, .order (.error .insufficientFunds)⟩ default .insufficientFunds
    .insufficientFunds rfl rfl rfl
  exact ⟨⟨t, hk, hfails 0 t ⟨5007, default⟩ _ _ .expired hk hphase rfl⟩, rfl, hsalvages⟩

end Session

end LaunchDesk
